/-
# Reuse of a closed 4-tuple

A client may open a new connection from the address and port of one that was reset or
closed.  Compared with a flow not in the table, the closed flow reports the same RTT
samples, refusals, establishments and handshake timeouts exactly if it never recorded a
bare SYN and already names the destination of the new SYN as its service
(`EngineState.reuse_like_fresh_iff`): the SYN arm sets the SYN time once in the life of a
flow, and nothing clears it when the flow is closed.
-/
import L4Scope.HandshakeTimeout

/-! ## What is compared -/

section Shown

variable {F : Type}

/-- What a step shows of the handshake of `k`: the handshake part of a delta, and the
timeouts of `k` among the events of a sweep. -/
def handshakeShown (k : FlowKey) (e : Step F) : HandshakeDelta × List (L4Event F) :=
  match e.output with
  | .updated d => (d.handshake, [])
  | .swept evs => ({}, evs.filter (isTimeout k))

/-- The operation is a packet on `k` or a sweep. -/
def Op.OnKey (k : FlowKey) : Op → Prop
  | .update pkt => pkt.key = k
  | .sweep _ => True

instance (k : FlowKey) : DecidablePred (Op.OnKey k)
  | .update pkt => inferInstanceAs (Decidable (pkt.key = k))
  | .sweep _ => inferInstanceAs (Decidable True)

/-- The flow is tracked whenever an operation is performed. -/
def TrackedThroughout [F64 F] (k : FlowKey) : EngineState F → List Op → Prop
  | _, [] => True
  | s, op :: ops => s.flows.lookup k ≠ none ∧
      TrackedThroughout k (EngineState.machine.step s op).1 ops

/-- The state in which `k` is not in the table. -/
def EngineState.without (s : EngineState F) (k : FlowKey) : EngineState F :=
  { s with flows := s.flows.erase k }

/-- The destination of a packet. -/
def PacketMeta.dst (p : PacketMeta) : Endpoint := (endpoints p).2

end Shown

/-! ## Handshakes alike -/

/-- Two handshakes that react alike: what a flow remembers of its RTT and of its
establishment has no influence. -/
structure Handshake.Alike (h h' : Handshake) : Prop where
  state : h'.state = h.state
  synTimeNs : h'.synTimeNs = h.synTimeNs
  flagged : h'.flagged = h.flagged

namespace Handshake.Alike

variable {h h' : Handshake}

/-- A packet keeps handshakes alike. -/
theorem onPacket (ha : h.Alike h') (p : PacketMeta) :
    (h.onPacket p).1.Alike (h'.onPacket p).1 ∧ (h'.onPacket p).2 = (h.onPacket p).2 := by
  obtain ⟨state, syn, rtt, est, flag, counted⟩ := h
  obtain ⟨state', syn', rtt', est', flag', counted'⟩ := h'
  obtain ⟨hstate, hsyn, hflag⟩ := ha
  dsimp only at hstate hsyn hflag
  subst hstate hsyn hflag
  unfold Handshake.onPacket
  rcases p.segment with _ | (_ | _ | _ | ⟨ack, fin⟩)
  · exact ⟨⟨rfl, rfl, rfl⟩, rfl⟩
  · unfold step onSyn
    cases syn' <;> exact ⟨⟨rfl, rfl, rfl⟩, rfl⟩
  · exact ⟨⟨rfl, rfl, rfl⟩, rfl⟩
  · exact ⟨⟨rfl, rfl, rfl⟩, rfl⟩
  · unfold step onAck onFin
    dsimp only
    split_ifs <;> exact ⟨⟨rfl, rfl, rfl⟩, rfl⟩

/-- They time out together. -/
theorem timedOut (ha : h.Alike h') (hto now : ℕ) : h'.timedOut hto now = h.timedOut hto now := by
  unfold Handshake.timedOut
  rw [ha.state, ha.synTimeNs, ha.flagged]

/-- A sweep keeps handshakes alike. -/
theorem onSweep (ha : h.Alike h') (hto now : ℕ) : (h.onSweep hto now).Alike (h'.onSweep hto now) := by
  unfold Handshake.onSweep
  rw [ha.timedOut]
  split_ifs
  · exact ⟨ha.state, ha.synTimeNs, rfl⟩
  · exact ha

end Handshake.Alike

/-! ## Flows alike -/

/-- Two flows that react alike, live equally long and name their services alike. -/
structure FlowState.Alike (f f' : FlowState) : Prop where
  handshake : f.handshake.Alike f'.handshake
  lastSeen : f'.lastSeenNs = f.lastSeenNs
  service : toString f'.service = toString f.service

namespace FlowState.Alike

variable {F : Type} {f f' : FlowState}

/-- A packet keeps flows alike. -/
theorem onPacket (ha : f.Alike f') (p : PacketMeta) :
    (flowStep p (some f)).1.Alike (flowStep p (some f')).1 ∧
      (flowStep p (some f')).2.handshake = (flowStep p (some f)).2.handshake := by
  obtain ⟨hmove, hshow⟩ := ha.handshake.onPacket p
  refine ⟨⟨?_, ?_, ?_⟩, ?_⟩
  · rw [handshake_flowStep_fst, handshake_flowStep_fst]
    exact hmove
  · rw [flowStep_lastSeenNs, flowStep_lastSeenNs]
  · rw [flowStep_service, flowStep_service]
    exact ha.service
  · rw [handshake_flowStep_snd, handshake_flowStep_snd]
    exact hshow

/-- A sweep evicts both flows or neither, and flags both or neither. -/
theorem onSweep (ha : f.Alike f') (cfg : DetectConfig F) (now : ℕ) :
    Option.Rel FlowState.Alike (sweepFlow cfg now f) (sweepFlow cfg now f') := by
  have htime : ∀ hto, f'.timedOut hto now = f.timedOut hto now := fun hto =>
    ha.handshake.timedOut hto now
  unfold sweepFlow FlowState.idle
  rw [ha.lastSeen, htime]
  split_ifs
  · exact Option.Rel.none
  · refine Option.Rel.some ⟨⟨ha.handshake.state, ha.handshake.synTimeNs, rfl⟩, ha.lastSeen, ?_⟩
    exact ha.service
  · exact Option.Rel.some ha

/-- Both flows give the same timeout event. -/
theorem event_eq [F64 F] (ha : f.Alike f') (now : ℕ) (k : FlowKey) :
    timeoutEvent (F := F) now k f' = timeoutEvent now k f := by
  have hsyn : f'.synTimeNs = f.synTimeNs := ha.handshake.synTimeNs
  unfold timeoutEvent
  rw [hsyn, ha.service]

end FlowState.Alike

/-- Timeout events of flows with the same SYN time name the service. -/
theorem service_of_event_eq {F : Type} [F64 F] {f f' : FlowState} {now : ℕ} {k : FlowKey}
    (hsyn : f'.synTimeNs = f.synTimeNs)
    (h : timeoutEvent (F := F) now k f = timeoutEvent now k f') :
    toString f.service = toString f'.service := by
  have hdetail := congrArg L4Event.detail h
  unfold timeoutEvent at hdetail
  rw [hsyn] at hdetail
  simpa only [String.append_left_inj, String.append_right_inj] using hdetail

/-! ## Runs alike -/

namespace EngineState

variable {F : Type} [F64 F] {k : FlowKey} {s t : EngineState F}

/-- The flow `k` is alike in the two states, or tracked in neither. -/
structure AlikeOn (k : FlowKey) (s t : EngineState F) : Prop where
  cfg : t.cfg = s.cfg
  flow : Option.Rel FlowState.Alike (s.flows.lookup k) (t.flows.lookup k)

omit [F64 F] in
/-- The flow is in neither state, or in both. -/
theorem AlikeOn.cases (h : AlikeOn k s t) :
    (s.flows.lookup k = none ∧ t.flows.lookup k = none) ∨
      ∃ f f', s.flows.lookup k = some f ∧ t.flows.lookup k = some f' ∧ f.Alike f' := by
  have hflow := h.flow
  generalize s.flows.lookup k = found at hflow ⊢
  generalize t.flows.lookup k = found' at hflow ⊢
  cases hflow with
  | none => exact Or.inl ⟨rfl, rfl⟩
  | some ha => exact Or.inr ⟨_, _, rfl, rfl, ha⟩

/-- One packet on `k`. -/
theorem AlikeOn.update (h : AlikeOn k s t) {p : PacketMeta} (hk : p.key = k) :
    AlikeOn k (s.update p).1 (t.update p).1 ∧
      handshakeShown k (Step.of s (.update p)) = handshakeShown k (Step.of t (.update p)) := by
  subst hk
  have hstep : (flowStep p (s.flows.lookup p.key)).1.Alike (flowStep p (t.flows.lookup p.key)).1 ∧
      (flowStep p (t.flows.lookup p.key)).2.handshake
        = (flowStep p (s.flows.lookup p.key)).2.handshake := by
    rcases h.cases with ⟨hs, ht⟩ | ⟨f, f', hs, ht, ha⟩
    · rw [hs, ht]
      exact ⟨⟨⟨rfl, rfl, rfl⟩, rfl, rfl⟩, rfl⟩
    · rw [hs, ht]
      exact ha.onPacket p
  refine ⟨⟨h.cfg, ?_⟩, ?_⟩
  · rw [lookup_update, lookup_update, if_pos rfl, if_pos rfl]
    exact Option.Rel.some hstep.1
  · simp only [handshakeShown, Step.of, step_update, update_delta]
    rw [hstep.2]

/-- One sweep. -/
theorem AlikeOn.sweep (h : AlikeOn k s t) (now : ℕ) :
    AlikeOn k (s.sweep now).1 (t.sweep now).1 ∧
      handshakeShown k (Step.of s (.sweep now)) = handshakeShown k (Step.of t (.sweep now)) := by
  have hshown : ∀ s : EngineState F, handshakeShown k (Step.of s (.sweep now))
      = ({}, (s.sweep now).2.filter (isTimeout k)) := fun _ => rfl
  have hcfg : (t.sweep now).1.cfg = (s.sweep now).1.cfg := by rw [sweep_cfg, sweep_cfg, h.cfg]
  rw [hshown, hshown]
  rcases h.cases with ⟨hs, ht⟩ | ⟨f, f', hs, ht, ha⟩
  · refine ⟨⟨hcfg, ?_⟩, ?_⟩
    · rw [lookup_sweep, lookup_sweep, hs, ht]
      exact Option.Rel.none
    · rw [filter_sweep_events_none hs, filter_sweep_events_none ht]
  · have htime : ∀ hto, f'.timedOut hto now = f.timedOut hto now := fun hto =>
      ha.handshake.timedOut hto now
    refine ⟨⟨hcfg, ?_⟩, ?_⟩
    · rw [lookup_sweep, lookup_sweep, hs, ht, h.cfg]
      exact ha.onSweep s.cfg now
    · rw [filter_sweep_events hs, filter_sweep_events ht, h.cfg, htime, ha.event_eq]

/-- **States alike on `k` show the same handshakes of `k`.** -/
theorem AlikeOn.shown_eq (h : AlikeOn k s t) {ops : List Op} (hon : ∀ op ∈ ops, op.OnKey k) :
    (machine.log s ops).map (handshakeShown k) = (machine.log t ops).map (handshakeShown k) := by
  refine machine.map_log_eq (R := AlikeOn k) (handshakeShown k) ?_ h
  rintro s t (p | now) hop h
  · exact h.update (hon _ hop)
  · exact h.sweep now

/-! ## Reuse -/

omit [F64 F] in
/-- The flow is gone. -/
theorem lookup_without (s : EngineState F) (k : FlowKey) : (s.without k).flows.lookup k = none :=
  AList.lookup_erase k s.flows

/-- The guess from a bare SYN is its destination. -/
theorem guessService_of_bareSyn {p : PacketMeta} (h : p.bareSyn = true) :
    guessService p = p.dst := by
  unfold PacketMeta.bareSyn at h
  rw [Bool.and_eq_true, decide_eq_true_eq] at h
  unfold guessService PacketMeta.dst
  dsimp only
  rw [if_pos h]

/-- A bare SYN opens the handshake of a flow that never saw one. -/
theorem onPacket_bareSyn {h : Handshake} {p : PacketMeta} (hsyn : p.bareSyn = true)
    (htime : h.synTimeNs = none) : h.onPacket p
      = ({ h with synTimeNs := some p.tsNanos, state := .synSent, counted := true }, {}) := by
  rw [PacketMeta.bareSyn_eq, decide_eq_true_eq] at hsyn
  unfold Handshake.onPacket
  rw [hsyn]
  dsimp only [Handshake.step]
  rw [Handshake.onSyn, htime]

/-- On a flow that saw one before, it changes nothing. -/
theorem onPacket_bareSyn_again {h : Handshake} {p : PacketMeta} (hsyn : p.bareSyn = true) {t : ℕ}
    (htime : h.synTimeNs = some t) : h.onPacket p = (h, {}) := by
  rw [PacketMeta.bareSyn_eq, decide_eq_true_eq] at hsyn
  unfold Handshake.onPacket
  rw [hsyn]
  dsimp only [Handshake.step]
  rw [Handshake.onSyn, htime]

/-- A closed flow that never saw a bare SYN is like a fresh one after the first. -/
theorem alike_after_syn {f : FlowState} (hok : f.handshake.Ok) (htime : f.synTimeNs = none)
    {syn : PacketMeta} (hsyn : syn.bareSyn = true)
    (hserv : toString f.service = toString syn.dst) :
    (flowStep syn (some f)).1.Alike (flowStep syn none).1 ∧
      (flowStep syn none).2.handshake = (flowStep syn (some f)).2.handshake := by
  have htime' : f.handshake.synTimeNs = none := htime
  have hflag : f.handshake.flagged = false := by
    by_contra hflag
    exact hok.syn_of_flagged (by simpa using hflag) htime'
  have hf := onPacket_bareSyn hsyn htime'
  have hinit := onPacket_bareSyn (h := Handshake.init) hsyn rfl
  refine ⟨⟨?_, ?_, ?_⟩, ?_⟩
  · rw [handshake_flowStep_fst, handshake_flowStep_fst, handshakeOf_some, handshakeOf_none, hf,
      hinit]
    exact ⟨rfl, rfl, hflag.symm⟩
  · rw [flowStep_lastSeenNs, flowStep_lastSeenNs]
  · rw [flowStep_service, flowStep_service]
    show toString (guessService syn) = toString f.service
    rw [guessService_of_bareSyn hsyn, hserv]
  · rw [handshake_flowStep_snd, handshake_flowStep_snd, handshakeOf_some, handshakeOf_none, hf,
      hinit]

/-- The new connection is tracked like a fresh one: every sequence of packets on `k` and
sweeps that begins with the bare SYN `syn` and is processed while the flow is tracked
shows the same handshakes as from the state in which `k` is not in the table. -/
def TrackedLikeFresh (s : EngineState F) (syn : PacketMeta) : Prop :=
  ∀ ops : List Op, (∀ op ∈ ops, op.OnKey syn.key) →
    TrackedThroughout syn.key s (.update syn :: ops) →
    (machine.log s (.update syn :: ops)).map (handshakeShown syn.key)
      = (machine.log (s.without syn.key) (.update syn :: ops)).map (handshakeShown syn.key)

/-- What one more step after the SYN shows. -/
theorem shown_two (s : EngineState F) (k : FlowKey) (syn : PacketMeta) (op : Op) :
    (machine.log s [.update syn, op]).map (handshakeShown k)
      = [handshakeShown k (Step.of s (.update syn)),
        handshakeShown k (Step.of (s.update syn).1 op)] := rfl

/-- If the flow is tracked like a fresh one, it never recorded a bare SYN: otherwise an RST
in answer to the new SYN would not count as a refusal. -/
theorem synTimeNs_of_trackedLikeFresh {s : EngineState F} {syn : PacketMeta} {f : FlowState}
    (hf : s.flows.lookup syn.key = some f) (hclosed : f.state = .reset ∨ f.state = .closing)
    (hsyn : syn.bareSyn = true) (h : TrackedLikeFresh s syn) : f.synTimeNs = none := by
  by_contra hne
  obtain ⟨t, ht⟩ := Option.ne_none_iff_exists'.1 hne
  have ht' : f.handshake.synTimeNs = some t := ht
  have hproto : syn.proto = .tcp := by
    unfold PacketMeta.bareSyn at hsyn
    exact of_decide_eq_true (Bool.and_eq_true_iff.1 hsyn).1
  let rst : PacketMeta := { syn with flags := ⟨TcpFlags.RST⟩ }
  have hseg : rst.segment = some .rst := by
    show (if syn.proto = .tcp then _ else _) = _
    rw [if_pos hproto]
    have hflags : rst.flags = ⟨TcpFlags.RST⟩ := rfl
    rw [hflags]
    decide
  have htracked : TrackedThroughout syn.key s [.update syn, .update rst] := by
    refine ⟨by rw [hf]; exact Option.some_ne_none f, ?_, trivial⟩
    rw [step_update, lookup_update, if_pos rfl]
    exact Option.some_ne_none _
  have hshown := h [.update rst] (by simp [Op.OnKey, rst]) htracked
  rw [shown_two, shown_two] at hshown
  obtain ⟨-, hlast⟩ := List.cons.inj hshown
  have hrefused := congrArg (fun d => d.refused) (congrArg Prod.fst (List.cons.inj hlast).1)
  have hdelta : ∀ s' : EngineState F, (handshakeShown syn.key (Step.of s' (.update rst))).1
      = ((handshakeOf (s'.flows.lookup syn.key)).onPacket rst).2 := by
    intro s'
    show (s'.update rst).2.2.handshake = _
    rw [update_delta, handshake_flowStep_snd]
  have honRst : ∀ h : Handshake, (h.onPacket rst).2.refused
      = decide (h.state = .synSent ∨ h.state = .synAckSeen) := by
    intro h
    unfold Handshake.onPacket
    rw [hseg]
    rfl
  simp only [hdelta, honRst, lookup_update, if_true, handshakeOf_some, handshake_flowStep_fst,
    lookup_without, hf, handshakeOf_none] at hrefused
  rw [onPacket_bareSyn_again hsyn ht', onPacket_bareSyn hsyn rfl] at hrefused
  have hstate : f.handshake.state = f.state := rfl
  rcases hclosed with hc | hc <;> rw [hstate, hc] at hrefused <;> simp at hrefused

/-- A first bare SYN times out. -/
theorem timedOut_after_syn {found : Option FlowState} (htime : (handshakeOf found).synTimeNs = none)
    (hflag : (handshakeOf found).flagged = false) {syn : PacketMeta} (hsyn : syn.bareSyn = true)
    (hto : ℕ) : (flowStep syn found).1.synTimeNs = some syn.tsNanos ∧
      (flowStep syn found).1.timedOut hto (syn.tsNanos + hto + 1) = true := by
  have hhand := (handshake_flowStep_fst syn found).trans
    (congrArg Prod.fst (onPacket_bareSyn hsyn htime))
  have htime' : (flowStep syn found).1.synTimeNs = some syn.tsNanos :=
    congrArg Handshake.synTimeNs hhand
  refine ⟨htime', FlowState.timedOut_iff.2 ⟨?_, ?_, syn.tsNanos, htime', by omega⟩⟩
  · exact congrArg Handshake.state hhand
  · exact (congrArg Handshake.flagged hhand).trans hflag

/-- If the flow is tracked like a fresh one, it names the destination of the new SYN: a
timeout says so. -/
theorem service_of_trackedLikeFresh {s : EngineState F} (hok : s.FlowsOk) {syn : PacketMeta}
    {f : FlowState} (hf : s.flows.lookup syn.key = some f) (htime : f.synTimeNs = none)
    (hsyn : syn.bareSyn = true) (h : TrackedLikeFresh s syn) :
    toString f.service = toString syn.dst := by
  have htime' : f.handshake.synTimeNs = none := htime
  have hflag : f.handshake.flagged = false := by
    by_contra hflag
    exact (hok _ f hf).syn_of_flagged (by simpa using hflag) htime'
  let hto := secsToNanos s.cfg.handshakeTimeoutSecs
  let now := syn.tsNanos + hto + 1
  have htracked : TrackedThroughout syn.key s [.update syn, .sweep now] := by
    refine ⟨by rw [hf]; exact Option.some_ne_none f, ?_, trivial⟩
    rw [step_update, lookup_update, if_pos rfl]
    exact Option.some_ne_none _
  have hshown := h [.sweep now] (by simp [Op.OnKey]) htracked
  rw [shown_two, shown_two] at hshown
  obtain ⟨-, hlast⟩ := List.cons.inj hshown
  have hevents : ((s.update syn).1.sweep now).2.filter (isTimeout syn.key)
      = (((s.without syn.key).update syn).1.sweep now).2.filter (isTimeout syn.key) :=
    congrArg Prod.snd (List.cons.inj hlast).1
  have hlookup := lookup_update s syn syn.key
  have hlookup' := lookup_update (s.without syn.key) syn syn.key
  rw [if_pos rfl, hf] at hlookup
  rw [if_pos rfl, lookup_without] at hlookup'
  obtain ⟨htime₁, hout₁⟩ := @timedOut_after_syn (some f) htime' hflag _ hsyn hto
  obtain ⟨htime₂, hout₂⟩ := @timedOut_after_syn none rfl rfl _ hsyn hto
  rw [filter_sweep_events hlookup, filter_sweep_events hlookup', update_cfg, update_cfg] at hevents
  have hcfg : (s.without syn.key).cfg = s.cfg := rfl
  rw [hcfg, if_pos hout₁, if_pos hout₂] at hevents
  have hsame := service_of_event_eq (htime₂.trans htime₁.symm) (List.cons.inj hevents).1
  rw [flowStep_service, flowStep_service] at hsame
  rw [← guessService_of_bareSyn hsyn]
  exact hsame

/-- **A reused 4-tuple is tracked like a fresh one exactly if** the closed flow never
recorded a bare SYN and its service reads like the destination of the new SYN. -/
theorem reuse_like_fresh_iff (cfg : DetectConfig F) (before : List Op) {syn : PacketMeta}
    {f : FlowState} (hf : (machine.after (new cfg) before).flows.lookup syn.key = some f)
    (hclosed : f.state = .reset ∨ f.state = .closing) (hsyn : syn.bareSyn = true) :
    TrackedLikeFresh (machine.after (new cfg) before) syn
      ↔ f.synTimeNs = none ∧ toString f.service = toString syn.dst := by
  have hok := after_flowsOk (new_flowsOk cfg) before
  generalize machine.after (new cfg) before = s at hf hok ⊢
  constructor
  · intro h
    have htime := synTimeNs_of_trackedLikeFresh hf hclosed hsyn h
    exact ⟨htime, service_of_trackedLikeFresh hok hf htime hsyn h⟩
  · rintro ⟨htime, hserv⟩ ops hon -
    obtain ⟨halike, hshow⟩ := alike_after_syn (hok _ f hf) htime hsyn hserv
    have hafter : AlikeOn syn.key (s.update syn).1 ((s.without syn.key).update syn).1 := by
      refine ⟨rfl, ?_⟩
      rw [lookup_update, lookup_update, if_pos rfl, if_pos rfl, lookup_without, hf]
      exact Option.Rel.some halike
    have hfirst : handshakeShown syn.key (Step.of s (.update syn))
        = handshakeShown syn.key (Step.of (s.without syn.key) (.update syn)) := by
      simp only [handshakeShown, Step.of, step_update, update_delta]
      rw [lookup_without, hf, hshow]
    rw [Machine.log_cons, Machine.log_cons, List.map_cons, List.map_cons]
    exact congrArg₂ List.cons hfirst (hafter.shown_eq hon)

/-- A flow first seen at its FIN: a SYN to its server is tracked like that of a fresh one. -/
theorem reuse_like_fresh_fin :
    let c := Sample.ep 1 5000
    let srv := Sample.ep 2 80
    let fin := Sample.tcp 0 c srv (TcpFlags.FIN ||| TcpFlags.ACK) 100 1 64240 0
    let syn := Sample.tcp 9 c srv TcpFlags.SYN 700 0 64240 0
    TrackedLikeFresh (machine.after (new (DetectConfig.default ℚ)) [.update fin]) syn := by
  intro c srv fin syn
  have hf := lookup_update (new (DetectConfig.default ℚ)) fin syn.key
  rw [if_pos (by decide)] at hf
  have hserv : (flowStep fin none).1.service = syn.dst := by decide
  exact (reuse_like_fresh_iff (DetectConfig.default ℚ) [.update fin] hf (by decide) (by decide)).2
    ⟨by decide, congrArg toString hserv⟩

/-- **A refusal is missed after a reset**: the client tries again from the same port and is
refused again, but only a fresh flow reports the second refusal. -/
theorem reuse_misses_refusal :
    let c := Sample.ep 1 5000
    let srv := Sample.ep 2 80
    let syn := Sample.tcp 0 c srv TcpFlags.SYN 100 0 64240 0
    let rst := Sample.tcp 1 srv c (TcpFlags.RST ||| TcpFlags.ACK) 0 101 0 0
    let syn' := Sample.tcp 2 c srv TcpFlags.SYN 700 0 64240 0
    let rst' := Sample.tcp 3 srv c (TcpFlags.RST ||| TcpFlags.ACK) 0 701 0 0
    let s := machine.after (new (DetectConfig.default ℚ)) [.update syn, .update rst]
    (s.flows.lookup syn'.key).map FlowState.state = some .reset ∧ syn'.bareSyn = true ∧
      (machine.log s [.update syn', .update rst']).map (fun e => (handshakeShown syn'.key e).1)
        = [{}, {}] ∧
      (machine.log (s.without syn'.key) [.update syn', .update rst']).map
        (fun e => (handshakeShown syn'.key e).1) = [{}, { refused := true }] ∧
      ¬ TrackedLikeFresh s syn' := by
  intro c srv syn rst syn' rst' s
  have hreused : (machine.log s [.update syn', .update rst']).map
      (fun e => (handshakeShown syn'.key e).1) = [{}, {}] := by decide
  have hfresh : (machine.log (s.without syn'.key) [.update syn', .update rst']).map
      (fun e => (handshakeShown syn'.key e).1) = [{}, { refused := true }] := by decide
  refine ⟨by decide, by decide, hreused, hfresh, fun h => ?_⟩
  have hon : ∀ op ∈ [Op.update rst'], op.OnKey syn'.key := by
    intro op hop
    obtain rfl := List.mem_singleton.1 hop
    decide
  have htracked : TrackedThroughout syn'.key s [.update syn', .update rst'] :=
    ⟨by decide, by decide, trivial⟩
  have hshown := congrArg (List.map Prod.fst) (h [.update rst'] hon htracked)
  rw [List.map_map, List.map_map] at hshown
  have hsame := hreused.symm.trans (hshown.trans hfresh)
  exact absurd hsame (by decide)

end EngineState
