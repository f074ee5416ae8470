/-
# Handshake timeouts

A sweep reports a handshake timeout from a few bits of flow state.  `HistoryOf` says
what these bits mean in terms of everything that happened in the life of the flow: the
time of the first bare SYN, whether that SYN is still unanswered, and how many timeouts
were already reported.  `EngineState.handshakeTimeout_exact` reads the reports off the
history.
-/
import L4Scope.Life
import Mathlib.Data.List.TakeWhile

/-! ## What the packets of a life say -/

/-- A packet that ends the wait for an answer: SYN and ACK, or RST or FIN without SYN. -/
def PacketMeta.answers (p : PacketMeta) : Bool :=
  p.proto = .tcp && (p.flags.isSynAck || !p.flags.syn && (p.flags.rst || p.flags.fin))

/-- What counts as an answer, by the arm a packet takes. -/
theorem PacketMeta.answers_eq (p : PacketMeta) : p.answers = match p.segment with
    | some .synAck | some .rst => true
    | some (.other _ fin) => fin
    | some .syn | none => false := by
  unfold answers segment
  by_cases hp : p.proto = .tcp
  · rw [if_pos hp, decide_eq_true hp, Bool.true_and]
    unfold TcpFlags.isSynOnly TcpFlags.isSynAck
    cases p.flags.syn <;> cases p.flags.ack <;> cases p.flags.rst <;> rfl
  · rw [if_neg hp, decide_eq_false hp]
    rfl

/-- The time of the first bare SYN. -/
def firstSyn (pkts : List PacketMeta) : Option ℕ :=
  (pkts.find? PacketMeta.bareSyn).map PacketMeta.tsNanos

/-- The packets after the first bare SYN. -/
def afterSyn (pkts : List PacketMeta) : List PacketMeta :=
  (pkts.dropWhile fun p => !p.bareSyn).tail

/-- One more packet. -/
theorem firstSyn_concat (pkts : List PacketMeta) (p : PacketMeta) :
    firstSyn (pkts ++ [p])
      = (firstSyn pkts).or (if p.bareSyn then some p.tsNanos else none) := by
  unfold firstSyn
  rw [List.find?_append, Option.map_or]
  congr 1
  rw [List.find?_singleton]
  cases p.bareSyn <;> rfl

/-- There is no SYN yet. -/
theorem firstSyn_eq_none {pkts : List PacketMeta} :
    firstSyn pkts = none ↔ (pkts.dropWhile fun p => !p.bareSyn) = [] := by
  unfold firstSyn
  rw [Option.map_eq_none_iff, List.find?_eq_none, List.dropWhile_eq_nil_iff]
  simp

/-- One more packet behind the SYN. -/
theorem afterSyn_concat (pkts : List PacketMeta) (p : PacketMeta) :
    afterSyn (pkts ++ [p]) = if firstSyn pkts = none then [] else afterSyn pkts ++ [p] := by
  unfold afterSyn
  rw [List.dropWhile_append]
  split_ifs with hempty hnone hnone
  · cases hp : p.bareSyn <;> simp [hp]
  · exact absurd (firstSyn_eq_none.2 (List.isEmpty_iff.1 hempty)) hnone
  · exact absurd (List.isEmpty_iff.2 (firstSyn_eq_none.1 hnone)) hempty
  · rw [List.tail_append_of_ne_nil]
    intro hnil
    exact hempty (List.isEmpty_iff.2 hnil)

/-- A bare SYN was seen and nothing has answered the first one. -/
def Unanswered (pkts : List PacketMeta) : Prop :=
  firstSyn pkts ≠ none ∧ ∀ p ∈ afterSyn pkts, p.answers = false

/-- A SYN starts the wait, and an answer ends it. -/
theorem unanswered_concat (pkts : List PacketMeta) (p : PacketMeta) :
    Unanswered (pkts ++ [p])
      ↔ (firstSyn pkts = none ∧ p.bareSyn = true) ∨ (Unanswered pkts ∧ p.answers = false) := by
  unfold Unanswered
  rw [firstSyn_concat, afterSyn_concat]
  cases hfirst : firstSyn pkts with
  | none =>
      cases p.bareSyn <;> simp
  | some t =>
      simp [List.mem_append, or_imp, forall_and]

/-! ## What the automaton remembers of them -/

namespace Handshake

variable (h : Handshake) (p : PacketMeta)

/-- A packet keeps the flag. -/
theorem onPacket_flagged : (h.onPacket p).1.flagged = h.flagged := by
  unfold onPacket
  rcases p.segment with _ | (_ | _ | _ | ⟨ack, fin⟩)
  · rfl
  · show (onSyn p.tsNanos h).flagged = h.flagged
    unfold onSyn
    cases h.synTimeNs <;> rfl
  · rfl
  · rfl
  · simp only [step, onAck, onFin]
    split_ifs <;> rfl

/-- A packet leaves the automaton waiting for an answer if it is the first bare SYN, or
if the automaton was waiting and the packet is no answer. -/
theorem onPacket_synSent (hok : h.Ok) : (h.onPacket p).1.state = .synSent
    ↔ (h.synTimeNs = none ∧ p.bareSyn = true) ∨ (h.state = .synSent ∧ p.answers = false) := by
  have hsyn := hok.syn_of_synSent
  rw [PacketMeta.bareSyn_eq, PacketMeta.answers_eq, onPacket]
  rcases p.segment with _ | (_ | _ | _ | ⟨ack, fin⟩)
  · simp
  · cases htime : h.synTimeNs with
    | none =>
        have hstate : (step p.tsNanos h .syn).1.state = .synSent := by
          simp [step, onSyn, htime]
        simp [hstate]
    | some t => simp [step, onSyn, htime]
  · simp [step, onSynAck]
  · simp [step, onRst]
  · cases fin <;> simp only [step, onAck, onFin] <;> split_ifs <;> simp_all

end Handshake

/-! ## The history of a life -/

variable {F : Type}

/-- The event reports a handshake timeout of `k`. -/
def isTimeout (k : FlowKey) (ev : L4Event F) : Bool :=
  ev.kind = .handshakeTimeout && ev.key = k

/-- A timeout is about its flow. -/
theorem isTimeout_timeoutEvent [F64 F] {k k' : FlowKey} {now : ℕ} {f : FlowState}
    (h : isTimeout k (timeoutEvent (F := F) now k' f) = true) : k' = k :=
  of_decide_eq_true (Bool.and_eq_true_iff.1 h).2

/-- The packets on `k` of a list of steps. -/
def packetsOf (k : FlowKey) (steps : List (Step F)) : List PacketMeta :=
  packetsOn k (steps.map fun e => e.input)

/-- The handshake part of a flow as a summary of its life. -/
structure HistoryOf (k : FlowKey) (steps : List (Step F)) (h : Handshake) : Prop where
  ok : h.Ok
  synTime : h.synTimeNs = firstSyn (packetsOf k steps)
  synSent : h.state = .synSent ↔ Unanswered (packetsOf k steps)
  /-- At most one timeout is reported in a life. -/
  flagged : (steps.flatMap Step.events).countP (isTimeout k) = if h.flagged then 1 else 0

/-- What a sweep reports about one flow. -/
theorem EngineState.countP_sweep_events [F64 F] {s : EngineState F} {k : FlowKey} {f : FlowState}
    (hf : s.flows.lookup k = some f) (now : ℕ) :
    (s.sweep now).2.countP (isTimeout k)
      = if f.timedOut (secsToNanos s.cfg.handshakeTimeoutSecs) now then 1 else 0 := by
  rw [sweep_events, List.countP_map, List.countP_filter, (Table.perm_cons_erase hf).countP_eq,
    List.countP_cons]
  have hrest : (AList.entries (s.flows.erase k)).countP (fun e =>
      (isTimeout k ∘ fun e => timeoutEvent (F := F) now e.1 e.2) e
        && e.2.timedOut (secsToNanos s.cfg.handshakeTimeoutSecs) now) = 0 := by
    rw [List.countP_eq_zero]
    intro e he htrue
    have hkey : e.1 = k := isTimeout_timeoutEvent (Bool.and_eq_true_iff.1 htrue).1
    have hmem : e.1 ∈ s.flows.erase k := List.mem_keys_of_mem he
    exact (AList.mem_erase.1 hmem).1 hkey
  rw [hrest]
  simp [isTimeout, timeoutEvent]

/-- The timeout of a tracked flow in the events of a sweep. -/
theorem EngineState.filter_sweep_events [F64 F] {s : EngineState F} {k : FlowKey}
    {f : FlowState} (hf : s.flows.lookup k = some f) (now : ℕ) :
    (s.sweep now).2.filter (isTimeout k)
      = if f.timedOut (secsToNanos s.cfg.handshakeTimeoutSecs) now then [timeoutEvent now k f]
        else [] := by
  have hlen : ((s.sweep now).2.filter (isTimeout k)).length
      = if f.timedOut (secsToNanos s.cfg.handshakeTimeoutSecs) now then 1 else 0 := by
    rw [← List.countP_eq_length_filter, countP_sweep_events hf]
  have hmem : ∀ ev ∈ (s.sweep now).2.filter (isTimeout k), ev = timeoutEvent now k f := by
    intro ev hev
    obtain ⟨hev, hk⟩ := List.mem_filter.1 hev
    obtain ⟨k', f', hf', -, rfl⟩ := mem_sweep_events.1 hev
    obtain rfl := isTimeout_timeoutEvent hk
    rw [hf] at hf'
    rw [Option.some.inj hf']
  split_ifs at hlen ⊢
  · exact List.eq_replicate_iff.2 ⟨hlen, hmem⟩
  · exact List.length_eq_zero_iff.1 hlen

/-- A sweep reports nothing about a flow not tracked. -/
theorem EngineState.filter_sweep_events_none [F64 F] {s : EngineState F} {k : FlowKey}
    (hf : s.flows.lookup k = none) (now : ℕ) : (s.sweep now).2.filter (isTimeout k) = [] := by
  rw [List.filter_eq_nil_iff]
  intro ev hev hk
  obtain ⟨k', f', hf', -, rfl⟩ := mem_sweep_events.1 hev
  obtain rfl := isTimeout_timeoutEvent hk
  rw [hf] at hf'
  cases hf'

namespace HistoryOf

variable [F64 F] {k : FlowKey} {steps : List (Step F)} {h : Handshake}

omit [F64 F] in
/-- A life without packets. -/
theorem init : HistoryOf (F := F) k [] Handshake.init where
  ok := Handshake.init_ok
  synTime := rfl
  synSent := by
    constructor
    · nofun
    · intro hun
      exact absurd rfl hun.1
  flagged := rfl

/-- A packet of the flow. -/
theorem packet (hh : HistoryOf k steps h) {s : EngineState F} {pkt : PacketMeta}
    (hk : pkt.key = k) :
    HistoryOf k (steps ++ [Step.of s (.update pkt)]) (h.onPacket pkt).1 := by
  have hpkts : packetsOf k (steps ++ [Step.of s (.update pkt)]) = packetsOf k steps ++ [pkt] := by
    simp [packetsOf, packetsOn, Step.of, Op.packetOn, hk]
  refine ⟨Handshake.onPacket_ok hh.ok pkt, ?_, ?_, ?_⟩
  · rw [hpkts, firstSyn_concat, Handshake.onPacket_synTimeNs, hh.synTime]
  · rw [hpkts, unanswered_concat, Handshake.onPacket_synSent h pkt hh.ok, hh.synTime, hh.synSent]
  · rw [Handshake.onPacket_flagged, ← hh.flagged, List.flatMap_append, List.countP_append]
    rfl

/-- A packet of another flow. -/
theorem other (hh : HistoryOf k steps h) {s : EngineState F} {pkt : PacketMeta}
    (hk : pkt.key ≠ k) : HistoryOf k (steps ++ [Step.of s (.update pkt)]) h := by
  have hpkts : packetsOf k (steps ++ [Step.of s (.update pkt)]) = packetsOf k steps := by
    simp [packetsOf, packetsOn, Step.of, Op.packetOn, hk]
  refine ⟨hh.ok, ?_, ?_, ?_⟩
  · rw [hpkts, hh.synTime]
  · rw [hpkts, hh.synSent]
  · rw [← hh.flagged, List.flatMap_append, List.countP_append]
    rfl

/-- A sweep that keeps the flow. -/
theorem sweep {f f' : FlowState} (hh : HistoryOf k steps f.handshake) {s : EngineState F}
    {now : ℕ} (hf : s.flows.lookup k = some f) (hf' : sweepFlow s.cfg now f = some f') :
    HistoryOf k (steps ++ [Step.of s (.sweep now)]) f'.handshake := by
  have hpkts : packetsOf k (steps ++ [Step.of s (.sweep now)]) = packetsOf k steps := by
    simp [packetsOf, packetsOn, Step.of, Op.packetOn]
  have hevents : (Step.of s (.sweep now)).events = (s.sweep now).2 := rfl
  rw [handshake_sweepFlow hf']
  refine ⟨Handshake.onSweep_ok hh.ok _ now, ?_, ?_, ?_⟩
  · rw [hpkts, Handshake.onSweep_synTimeNs, hh.synTime]
  · rw [hpkts, Handshake.onSweep_state, hh.synSent]
  · -- the sweep reports the flow exactly when it turns the flag on
    rw [List.flatMap_append, List.countP_append, hh.flagged, List.flatMap_cons,
      List.flatMap_nil, List.append_nil, hevents, EngineState.countP_sweep_events hf,
      Handshake.onSweep, timedOut_handshake]
    split_ifs with hflag htime hflag' hflag' <;> simp_all [FlowState.timedOut, FlowState.handshake]

/-- Every tracked flow is a summary of its life. -/
theorem of_run (cfg : DetectConfig F) (ops : List Op) (k : FlowKey) :
    HistoryOf k (life k (EngineState.machine.log (EngineState.new cfg) ops))
      (handshakeOf ((EngineState.machine.after (EngineState.new cfg) ops).flows.lookup k)) := by
  refine life_rule k cfg (J := fun steps found => HistoryOf k steps (handshakeOf found))
    init ?_ ?_ ?_ ops
  · intro s steps pkt _ hk hh
    show HistoryOf k _ (flowStep pkt (s.flows.lookup k)).1.handshake
    rw [handshake_flowStep_fst]
    exact hh.packet hk
  · intro s steps f pkt _ hk _ hh
    exact hh.other hk
  · intro s steps f f' now hs hf hh hf'
    exact hh.sweep hf (hs ▸ hf')

end HistoryOf

/-- What the sweep looks at. -/
theorem FlowState.timedOut_iff {f : FlowState} {hto now : ℕ} : f.timedOut hto now = true
    ↔ f.state = .synSent ∧ f.handshakeTimeoutFlagged = false ∧
      ∃ t, f.synTimeNs = some t ∧ hto < now - t := by
  unfold timedOut
  cases f.synTimeNs <;> simp [and_assoc]

namespace HistoryOf

variable {k : FlowKey} {steps : List (Step F)} {f : FlowState}

/-- The flag is down exactly if no timeout was reported. -/
theorem flag_down (hh : HistoryOf k steps f.handshake) :
    f.handshakeTimeoutFlagged = false ↔
      ∀ ev ∈ steps.flatMap Step.events, isTimeout k ev = false := by
  have hflag : (steps.flatMap Step.events).countP (isTimeout k)
      = if f.handshakeTimeoutFlagged then 1 else 0 := hh.flagged
  simp only [← Bool.not_eq_true]
  rw [← List.countP_eq_zero, hflag]
  cases f.handshakeTimeoutFlagged <;> simp

/-- A flow has timed out exactly if its first bare SYN has waited too long, unanswered and
unreported. -/
theorem timedOut_iff (hh : HistoryOf k steps f.handshake) {hto now : ℕ} :
    f.timedOut hto now = true ↔
      ∃ t, firstSyn (packetsOf k steps) = some t ∧
        (∀ p ∈ afterSyn (packetsOf k steps), p.answers = false) ∧ hto < now - t ∧
        ∀ ev ∈ steps.flatMap Step.events, isTimeout k ev = false := by
  have hsyn : f.synTimeNs = firstSyn (packetsOf k steps) := hh.synTime
  have hstate : f.state = .synSent ↔ Unanswered (packetsOf k steps) := hh.synSent
  rw [FlowState.timedOut_iff, hstate, hh.flag_down, ← hsyn]
  constructor
  · rintro ⟨⟨-, hans⟩, hnone, t, ht, hlt⟩
    exact ⟨t, ht, hans, hlt, hnone⟩
  · rintro ⟨t, ht, hans, hlt, hnone⟩
    refine ⟨⟨?_, hans⟩, hnone, t, ht, hlt⟩
    rw [← hsyn, ht]
    exact Option.some_ne_none t

/-- A flow that waits for its SYN-ACK and has not been seen for the timeout was reported
before, or is now. -/
theorem reported_once (hh : HistoryOf k steps f.handshake) {hto now : ℕ}
    (hwait : f.state = .synSent) (hlast : ∀ t, f.synTimeNs = some t → t ≤ f.lastSeenNs)
    (hidle : hto < now - f.lastSeenNs) :
    (steps.flatMap Step.events).countP (isTimeout k) + (if f.timedOut hto now then 1 else 0)
      = 1 := by
  have hflag : (steps.flatMap Step.events).countP (isTimeout k)
      = if f.handshakeTimeoutFlagged then 1 else 0 := hh.flagged
  rw [hflag]
  cases hfl : f.handshakeTimeoutFlagged with
  | true =>
      have hout : f.timedOut hto now = false := by
        rw [Bool.eq_false_iff, Ne, FlowState.timedOut_iff, hfl]
        rintro ⟨-, hfalse, -⟩
        cases hfalse
      rw [hout]
      rfl
  | false =>
      obtain ⟨t, ht⟩ := Option.ne_none_iff_exists'.1 (hh.ok.syn_of_synSent hwait)
      have htime : f.synTimeNs = some t := ht
      have hout : f.timedOut hto now = true := by
        rw [FlowState.timedOut_iff]
        have hle := hlast t htime
        exact ⟨hwait, hfl, t, htime, by omega⟩
      rw [hout]
      rfl

end HistoryOf

/-! ## Last-seen times -/

/-- A packet no earlier than the last one leaves the time of the SYN behind it. -/
theorem flowStep_synTimeNs_le {pkt : PacketMeta} {found : Option FlowState}
    (hle : ∀ f, found = some f → f.lastSeenNs ≤ pkt.tsNanos ∧
      ∀ t, f.synTimeNs = some t → t ≤ f.lastSeenNs) {t : ℕ}
    (ht : (flowStep pkt found).1.synTimeNs = some t) : t ≤ pkt.tsNanos := by
  rw [flowStep_synTimeNs, Option.or_eq_some_iff] at ht
  rcases ht with hold | ⟨-, hnew⟩
  · cases hf : found with
    | none =>
        rw [hf] at hold
        cases hold
    | some f =>
        rw [hf] at hold
        obtain ⟨hlast, hsyn⟩ := hle f hf
        exact (hsyn t hold).trans hlast
  · split_ifs at hnew
    cases hnew
    exact Nat.le_refl _

/-- For packets taken in order, a flow was last seen at one of them, and no earlier than
its first bare SYN. -/
theorem lastSeen_of_run [F64 F] (cfg : DetectConfig F) {ops : List Op}
    (hsorted : (packetTimes ops).Pairwise (· ≤ ·)) {k : FlowKey} {f : FlowState}
    (hf : (EngineState.machine.after (EngineState.new cfg) ops).flows.lookup k = some f) :
    f.lastSeenNs ∈ packetTimes ops ∧ ∀ t, f.synTimeNs = some t → t ≤ f.lastSeenNs := by
  induction ops using List.reverseRecOn generalizing f with
  | nil =>
      rw [Machine.after_nil, EngineState.new, AList.lookup_empty] at hf
      cases hf
  | append_singleton ops op ih =>
      have happ : packetTimes (ops ++ [op])
          = packetTimes ops ++ packetTimes [op] :=
        List.filterMap_append
      rw [happ, List.pairwise_append] at hsorted
      obtain ⟨hsorted, -, hlast⟩ := hsorted
      have ih := @ih hsorted
      rw [Machine.after_concat] at hf
      generalize EngineState.machine.after (EngineState.new cfg) ops = s at ih hf
      rw [happ, List.mem_append]
      cases op with
      | sweep now =>
          rw [EngineState.step_sweep, EngineState.lookup_sweep] at hf
          obtain ⟨f₀, hf₀, hsweep⟩ := Option.bind_eq_some_iff.1 hf
          obtain ⟨hmem, hle⟩ := ih hf₀
          have hlast := FlowState.lastSeenNs_of_frame (sweepFlow_eq_some hsweep).2
          have hsyn : f.synTimeNs = f₀.synTimeNs :=
            (congrArg Handshake.synTimeNs (handshake_sweepFlow hsweep)).trans
              (Handshake.onSweep_synTimeNs _ _ _)
          rw [hlast, hsyn]
          exact ⟨Or.inl hmem, hle⟩
      | update pkt =>
          rw [EngineState.step_update, EngineState.lookup_update] at hf
          split_ifs at hf with hk
          · obtain rfl := Option.some.inj hf
            have hnow : pkt.tsNanos ∈ packetTimes [.update pkt] := by simp [packetTimes]
            rw [flowStep_lastSeenNs]
            refine ⟨Or.inr hnow, fun t ht => flowStep_synTimeNs_le (fun f₀ hf₀ => ?_) ht⟩
            obtain ⟨hmem, hle⟩ := ih hf₀
            exact ⟨hlast _ hmem _ hnow, hle⟩
          · obtain ⟨hmem, hle⟩ := ih hf
            exact ⟨Or.inl hmem, hle⟩

/-! ## The reports of a sweep -/

/-- **Handshake timeouts are sound, complete and reported once.**  Take a sweep after any
operations (those of any calls on an engine are among them, `Engine.state_after`) and a
flow `k` tracked before it; let `steps` be the life of the flow so far.  The sweep reports
a timeout of `k` exactly if a bare SYN was seen in this life, the first of them at a time
`t` longer ago than the timeout, nothing has answered it, and no timeout was reported in
this life.  And if packets come in order and flows live at least as long as the timeout, a
flow evicted while it waits for its SYN-ACK has had exactly one timeout reported, that of
the evicting sweep included. -/
theorem EngineState.handshakeTimeout_exact [F64 F] (cfg : DetectConfig F) (ops : List Op)
    (hhto : NS_PER_SEC * cfg.handshakeTimeoutSecs < 2 ^ 64)
    (httl : NS_PER_SEC * cfg.flowTtlSecs < 2 ^ 64) (now : ℕ) {k : FlowKey} {f : FlowState}
    (hf : (machine.after (new cfg) ops).flows.lookup k = some f) :
    let s := machine.after (new cfg) ops
    let steps := life k (machine.log (new cfg) ops)
    let reported := steps.flatMap Step.events
    ((∃ ev ∈ (s.sweep now).2, isTimeout k ev = true) ↔
      ∃ t, firstSyn (packetsOf k steps) = some t ∧
        (∀ p ∈ afterSyn (packetsOf k steps), p.answers = false) ∧
        NS_PER_SEC * cfg.handshakeTimeoutSecs < now - t ∧
        ∀ ev ∈ reported, isTimeout k ev = false) ∧
    ((packetTimes ops).Pairwise (· ≤ ·) →
      cfg.handshakeTimeoutSecs ≤ cfg.flowTtlSecs →
      (s.sweep now).1.flows.lookup k = none → f.state = .synSent →
        (reported ++ (s.sweep now).2).countP (isTimeout k) = 1) := by
  intro s steps reported
  have hcfg : s.cfg = cfg := after_cfg (new cfg) ops
  have hist : HistoryOf k steps f.handshake := by
    have hrun := HistoryOf.of_run cfg ops k
    rwa [hf, handshakeOf_some] at hrun
  have hcount := countP_sweep_events hf now
  rw [hcfg, secsToNanos_eq hhto] at hcount
  refine ⟨?_, ?_⟩
  · have hpos : (0 < if f.timedOut (NS_PER_SEC * cfg.handshakeTimeoutSecs) now then 1 else 0)
        ↔ f.timedOut (NS_PER_SEC * cfg.handshakeTimeoutSecs) now = true := by
      split_ifs with h <;> simp [h]
    rw [← List.countP_pos_iff, hcount, hpos, hist.timedOut_iff]
  · intro hsorted hle hevict hwait
    obtain ⟨-, hlast⟩ := lastSeen_of_run cfg hsorted hf
    -- the flow is idle, so its SYN has waited at least as long as the timeout
    have hidle : NS_PER_SEC * cfg.flowTtlSecs < now - f.lastSeenNs := by
      rw [lookup_sweep, hf, Option.bind_some, sweepFlow, hcfg, secsToNanos_eq httl] at hevict
      split_ifs at hevict with hi
      simpa [FlowState.idle] using hi
    have hsecs : NS_PER_SEC * cfg.handshakeTimeoutSecs ≤ NS_PER_SEC * cfg.flowTtlSecs :=
      Nat.mul_le_mul_left _ hle
    rw [List.countP_append, hcount]
    exact hist.reported_once hwait hlast (hsecs.trans_lt hidle)

/-- The test `detects_handshake_timeout_via_sweep`: a SYN at 0, a sweep at 10 s. -/
theorem EngineState.handshakeTimeout_exact_syn :
    let syn := Sample.tcp 0 (Sample.ep 1 5002) (Sample.ep 2 3306) TcpFlags.SYN 100 0 64240 0
    let s := machine.after (new (DetectConfig.default ℚ)) [.update syn]
    ∃ ev ∈ (s.sweep (10 * NS_PER_SEC)).2, isTimeout syn.key ev = true := by
  intro syn s
  have hf := lookup_update (new (DetectConfig.default ℚ)) syn syn.key
  rw [if_pos rfl] at hf
  refine ((handshakeTimeout_exact (DetectConfig.default ℚ) [.update syn] (by decide) (by decide)
    (10 * NS_PER_SEC) hf).1).2 ?_
  refine ⟨0, by decide, by decide, by decide, ?_⟩
  intro ev hev
  cases hev
