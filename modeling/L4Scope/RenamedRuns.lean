/-
# Runs under a renaming

The engine treats renamed packets alike, packet by packet.  A sweep visits the flows in the
order of a hash table, which the renaming does not respect: the flows it finds are the same,
so its timeout events are the same up to order, and every half-open counter falls by the
number of counted flows that leave, whatever the order (`EngineState.Lowers`).

`HashRun` is a run in which the table may be rearranged between the packets; the order of the
entries is never more than that.
-/
import L4Scope.HalfOpen
import L4Scope.HostRates
import L4Scope.Renaming
import Mathlib.Logic.Equiv.Basic

variable {F : Type} {r : IpAddr → IpAddr}

/-! ## The counters after a sweep -/

namespace Globals

/-- Lowering a count touches one entry. -/
theorem lookup_decHalfOpen (g : Globals) (ep ep' : Endpoint) :
    (g.decHalfOpen ep).halfOpen.lookup ep'
      = if ep' = ep then (g.halfOpen.lookup ep).map saturatingPred else g.halfOpen.lookup ep' := by
  rw [decHalfOpen]
  cases hc : g.halfOpen.lookup ep with
  | none =>
      split_ifs with h
      · rw [h, hc]
        rfl
      · rfl
  | some c =>
      split_ifs with h
      · rw [h]
        exact AList.lookup_insert _
      · exact AList.lookup_insert_ne h

end Globals

/-- Releasing a flow lowers the counter it is counted in. -/
theorem lookup_release (f : FlowState) (g : Globals) (ep : Endpoint) :
    (if f.halfOpenCounted then g.decHalfOpen f.service else g).halfOpen.lookup ep
      = (g.halfOpen.lookup ep).map Globals.saturatingPred^[if f.countedFor ep then 1 else 0] := by
  by_cases hc : f.halfOpenCounted = true
  · rw [if_pos hc, Globals.lookup_decHalfOpen]
    by_cases hep : ep = f.service
    · rw [if_pos hep, hep, FlowState.countedFor_service hc]
      rfl
    · rw [if_neg hep, FlowState.countedFor_of_ne hep]
      simp
  · rw [if_neg hc, FlowState.countedFor_of_not_counted (by simpa using hc)]
    simp

namespace EngineState

/-- From `s` to `t` the counter of `ep` falls by as much as the number of flows counted in it,
as far as saturation lets it. -/
def Lowers (ep : Endpoint) (s t : EngineState F) : Prop :=
  ∃ n, s.halfOpenFlows ep = t.halfOpenFlows ep + n ∧
    t.globals.halfOpen.lookup ep
      = (s.globals.halfOpen.lookup ep).map Globals.saturatingPred^[n]

theorem Lowers.refl (ep : Endpoint) (s : EngineState F) : Lowers ep s s := ⟨0, rfl, by simp⟩

/-- One after the other. -/
theorem Lowers.trans {ep : Endpoint} {s t u : EngineState F} (h : Lowers ep s t)
    (h' : Lowers ep t u) : Lowers ep s u := by
  obtain ⟨n, hcount, hlookup⟩ := h
  obtain ⟨m, hcount', hlookup'⟩ := h'
  refine ⟨m + n, by omega, ?_⟩
  rw [hlookup', hlookup, Option.map_map, Function.iterate_add]

/-- A counter falls by the difference of the counts. -/
theorem Lowers.lookup {ep : Endpoint} {s t : EngineState F} (h : Lowers ep s t) :
    t.globals.halfOpen.lookup ep = (s.globals.halfOpen.lookup ep).map
      Globals.saturatingPred^[s.halfOpenFlows ep - t.halfOpenFlows ep] := by
  obtain ⟨n, hcount, hlookup⟩ := h
  rw [hlookup, hcount, Nat.add_sub_cancel_left]

/-- Evicting a flow lowers the counts. -/
theorem lowers_evict (ep : Endpoint) (s : EngineState F) (k : FlowKey) :
    Lowers ep s (evict s k) := by
  rw [evict]
  cases hf : s.flows.lookup k with
  | none => exact Lowers.refl ep s
  | some f =>
      refine ⟨if f.countedFor ep then 1 else 0, ?_, lookup_release f s.globals ep⟩
      exact Table.count_of_lookup _ hf

variable [F64 F]

/-- So does flagging one. -/
theorem lowers_flagTimeout (ep : Endpoint) (now : ℕ) (acc : EngineState F × List (L4Event F))
    (k : FlowKey) : Lowers ep acc.1 (flagTimeout now acc k).1 := by
  rw [flagTimeout]
  cases hf : acc.1.flows.lookup k with
  | none => exact Lowers.refl ep acc.1
  | some f =>
      refine ⟨if f.countedFor ep then 1 else 0, ?_, ?_⟩
      · rw [halfOpenFlows, Table.count_of_lookup _ hf]
        simp only [halfOpenFlows, clearHalfOpen_flow, Table.count_insert,
          FlowState.countedFor, Bool.false_and, Bool.false_eq_true, if_false, add_zero]
      · rw [← lookup_release]
        simp only [clearHalfOpen]
        split_ifs <;> rfl

/-- So does a sweep. -/
theorem lowers_sweep (ep : Endpoint) (s : EngineState F) (now : ℕ) :
    Lowers ep s (s.sweep now).1 := by
  rw [sweep_eq]
  refine List.foldlRecOn (motive := fun s' : EngineState F => Lowers ep s s') _ evict ?_ ?_
  · refine List.foldlRecOn
      (motive := fun acc : EngineState F × List (L4Event F) => Lowers ep s acc.1)
      _ (flagTimeout now) (Lowers.refl ep s) ?_
    intro acc hacc k _
    exact hacc.trans (lowers_flagTimeout ep now acc k)
  · intro s' hs' k _
    exact hs'.trans (lowers_evict ep s' k)

end EngineState

/-! ## Flow states under the new names -/

/-- A renamed flow counts for its renamed service. -/
theorem FlowState.countedFor_rename (hr : Function.Injective r) (sw : Bool) (f : FlowState)
    (ep : Endpoint) : (f.rename r sw).countedFor (ep.rename r) = f.countedFor ep := by
  have hservice : (f.service.rename r = ep.rename r) ↔ f.service = ep :=
    (Endpoint.rename_injective hr).eq_iff
  rw [countedFor, countedFor]
  show (f.halfOpenCounted && decide (f.service.rename r = ep.rename r)) = _
  rw [decide_eq_decide.2 hservice]

namespace EngineState

/-- `s'` is `s` under the new names: the slots of a flow are exchanged exactly if the renaming
reverses the order of its endpoints. -/
structure Renamed (r : IpAddr → IpAddr) (s s' : EngineState F) : Prop where
  cfg : s'.cfg = s.cfg
  flows : Table.Renames FlowKey.Canonical (FlowKey.rename r)
    (fun k f => f.rename r (k.swapped r)) s.flows s'.flows
  globals : s.globals.Renamed r s'.globals

/-- The same state, its tables arranged in any way. -/
structure SameTables (s t : EngineState F) : Prop where
  cfg : t.cfg = s.cfg
  flows : ∀ k, t.flows.lookup k = s.flows.lookup k
  rstRate : t.globals.rstRate = s.globals.rstRate
  newFlowRate : t.globals.newFlowRate = s.globals.newFlowRate
  halfOpen : ∀ ep, t.globals.halfOpen.lookup ep = s.globals.halfOpen.lookup ep

/-- A state is an arrangement of itself. -/
theorem SameTables.refl (s : EngineState F) : SameTables s s :=
  ⟨rfl, fun _ => rfl, rfl, rfl, fun _ => rfl⟩

variable {s s' t t' : EngineState F}

/-- New states. -/
theorem new_renamed (cfg : DetectConfig F) : (new cfg).Renamed r (new cfg) where
  cfg := rfl
  flows := Table.Renames.empty
  globals := ⟨rfl, rfl, Table.Renames.empty⟩

/-- The names do not depend on how the tables are arranged. -/
theorem Renamed.sameTables (h : s.Renamed r s') (ht : s.SameTables t) (ht' : s'.SameTables t') :
    t.Renamed r t' where
  cfg := by rw [ht'.cfg, h.cfg, ht.cfg]
  flows := h.flows.congr ht.flows ht'.flows
  globals := by
    constructor
    · rw [ht'.rstRate, h.globals.rstRate, ht.rstRate]
    · rw [ht'.newFlowRate, h.globals.newFlowRate, ht.newFlowRate]
    · exact h.globals.halfOpen.congr ht.halfOpen ht'.halfOpen

/-- A packet, on both sides. -/
theorem Renamed.update (hr : Function.Injective r) (h : s.Renamed r s') {pkt : PacketMeta}
    (hobs : pkt.Observed) : (s.update pkt).1.Renamed r (s'.update (pkt.rename r)).1 ∧
      (s'.update (pkt.rename r)).2.2 = (s.update pkt).2.2.rename r := by
  have hfound := h.flows.lookup pkt.key hobs.canonical
  have hentry : (flowEntry pkt (s.flows.lookup pkt.key) s.globals).Renamed r (pkt.key.swapped r)
      (flowEntry (pkt.rename r) ((s.flows.lookup pkt.key).map
        (FlowState.rename r (pkt.key.swapped r))) s'.globals) := flowEntry_renamed h.globals
  have hw := ingest_renamed hr (PacketMeta.dir_rename hr hobs) hentry
  rw [← hfound, ← PacketMeta.key_rename] at hw
  constructor
  · constructor
    · exact h.cfg
    · show Table.Renames _ _ _ (s.flows.insert pkt.key _)
        (s'.flows.insert (pkt.rename r).key _)
      rw [PacketMeta.key_rename] at hw ⊢
      rw [hw.flow]
      exact h.flows.insert (FlowKey.rename_injOn hr) hobs.canonical _
    · exact hw.globals
  · rw [EngineState.update, EngineState.update]
    dsimp only
    rw [hw.d, hw.flow]
    rfl

variable [F64 F]

omit [F64 F] in
/-- A sweep does the same to the renamed flow. -/
theorem sweepFlow_rename (cfg : DetectConfig F) (now : ℕ) (sw : Bool) (f : FlowState) :
    sweepFlow cfg now (f.rename r sw) = (sweepFlow cfg now f).map (FlowState.rename r sw) := by
  have hidle : (f.rename r sw).idle (secsToNanos cfg.flowTtlSecs) now
      = f.idle (secsToNanos cfg.flowTtlSecs) now := rfl
  have hout : (f.rename r sw).timedOut (secsToNanos cfg.handshakeTimeoutSecs) now
      = f.timedOut (secsToNanos cfg.handshakeTimeoutSecs) now := rfl
  rw [sweepFlow, sweepFlow, hidle, hout]
  split_ifs <;> rfl

omit [F64 F] in
/-- A service has as many half-open flows under its new name. -/
theorem Renamed.halfOpenFlows (hr : Function.Injective r) (h : s.Renamed r s') (ep : Endpoint) :
    s'.halfOpenFlows (ep.rename r) = s.halfOpenFlows ep :=
  h.flows.count (FlowKey.rename_injOn hr) fun _ f => FlowState.countedFor_rename hr _ f ep

/-- A sweep, on both sides. -/
theorem Renamed.sweep (hr : Function.Injective r) (h : s.Renamed r s') (now : ℕ) :
    (s.sweep now).1.Renamed r (s'.sweep now).1 := by
  have hflows : Table.Renames FlowKey.Canonical (FlowKey.rename r)
      (fun k f => f.rename r (k.swapped r)) (s.sweep now).1.flows (s'.sweep now).1.flows := by
    refine h.flows.bind (F := fun _ => sweepFlow s.cfg now) (G := fun _ => sweepFlow s'.cfg now)
      ?_ (lookup_sweep s now) (lookup_sweep s' now)
    intro k f _
    rw [h.cfg, sweepFlow_rename]
  constructor
  · rw [sweep_cfg, sweep_cfg, h.cfg]
  · exact hflows
  · obtain ⟨hrst, hnew⟩ := sweep_rates s now
    obtain ⟨hrst', hnew'⟩ := sweep_rates s' now
    constructor
    · rw [hrst', h.globals.rstRate, hrst]
    · rw [hnew', h.globals.newFlowRate, hnew]
    · -- both sweeps lower the counters of a service by the same number
      have hcount : ∀ ep, (s'.sweep now).1.halfOpenFlows (ep.rename r)
          = (s.sweep now).1.halfOpenFlows ep :=
        fun ep => hflows.count (FlowKey.rename_injOn hr)
          fun _ f => FlowState.countedFor_rename hr _ f ep
      refine h.globals.halfOpen.bind
        (F := fun ep c => some (Globals.saturatingPred^[s.halfOpenFlows ep
          - (s.sweep now).1.halfOpenFlows ep] c))
        (G := fun ep c => some (Globals.saturatingPred^[s'.halfOpenFlows ep
          - (s'.sweep now).1.halfOpenFlows ep] c)) ?_ ?_ ?_
      · intro ep c _
        rw [h.halfOpenFlows hr, hcount]
        rfl
      · intro ep
        rw [(lowers_sweep ep s now).lookup, Option.map_eq_bind]
        rfl
      · intro ep
        rw [(lowers_sweep ep s' now).lookup, Option.map_eq_bind]
        rfl

end EngineState

/-! ## Events under the new names -/

/-- What an event says apart from its text, with its key under another name. -/
def L4Event.under (name : FlowKey → FlowKey) (ev : L4Event F) :
    ℕ × EventKind × Severity × FlowKey × F :=
  (ev.tsNanos, ev.kind, ev.severity, name ev.key, ev.value)

/-- The events `evs'` are the events `evs` under the new names, in any order. -/
def EventsRenamed (r : IpAddr → IpAddr) (evs evs' : List (L4Event F)) : Prop :=
  (evs'.map (L4Event.under id)).Perm (evs.map (L4Event.under (FlowKey.rename r)))

/-- The view of a renamed packet on a renamed state. -/
structure DetectCtx.Renamed (r : IpAddr → IpAddr) (ctx ctx' : DetectCtx F) : Prop where
  state : ctx.state.Renamed r ctx'.state
  canonical : ctx.key.Canonical
  key : ctx'.key = ctx.key.rename r
  delta : ctx'.delta = ctx.delta.rename r
  nowNs : ctx'.nowNs = ctx.nowNs

variable [F64 F]

/-- The timeouts of a sweep are found in the order of the table. -/
theorem EngineState.Renamed.sweep_events (hr : Function.Injective r) {s s' : EngineState F}
    (h : s.Renamed r s') (now : ℕ) : EventsRenamed r (s.sweep now).2 (s'.sweep now).2 := by
  have hperm := h.flows.entries_perm (FlowKey.rename_injOn hr)
  have hface : ∀ (k : FlowKey) (f : FlowState),
      (timeoutEvent (F := F) now (k.rename r) (f.rename r (k.swapped r))).under id
        = (timeoutEvent now k f).under (FlowKey.rename r) := fun _ _ => rfl
  rw [EventsRenamed, EngineState.sweep_events, EngineState.sweep_events, h.cfg]
  refine ((hperm.filter _).map _).map _ |>.trans (List.Perm.of_eq ?_)
  rw [List.filter_map, List.map_map, List.map_map, List.map_map]
  rfl

namespace DetectCtx.Renamed

variable {ctx ctx' : DetectCtx F}

omit [F64 F] in
/-- The flow of the packet is the renamed one. -/
theorem flow (h : ctx.Renamed r ctx') :
    ctx'.flow = ctx.flow.map (FlowState.rename r (ctx.key.swapped r)) := by
  rw [DetectCtx.flow, h.key]
  exact h.state.flows.lookup ctx.key h.canonical

omit [F64 F] in
/-- The configuration is the same. -/
theorem cfg (h : ctx.Renamed r ctx') : ctx'.cfg = ctx.cfg := h.state.cfg

/-- The retransmission detector reports the same, about the renamed flow. -/
theorem retransmission (h : ctx.Renamed r ctx') :
    (inspectRetransmission ctx').map (L4Event.under id)
      = (inspectRetransmission ctx).map (L4Event.under (FlowKey.rename r)) := by
  have hretx : ctx'.delta.isRetransmit = ctx.delta.isRetransmit := by rw [h.delta]; rfl
  simp only [inspectRetransmission, hretx, h.flow, h.cfg, h.key, h.nowNs]
  cases ctx.delta.isRetransmit with
  | false => rfl
  | true =>
      cases ctx.flow with
      | none => rfl
      | some f =>
          show Option.map _ (if F64.lt f.retransmitRatio ctx.cfg.retransmitRatioWarn then none
              else some _) = Option.map _ (if F64.lt f.retransmitRatio
                ctx.cfg.retransmitRatioWarn then none else some _)
          split_ifs <;> rfl

/-- So does that of segments out of order. -/
theorem outOfOrder (h : ctx.Renamed r ctx') :
    (inspectOutOfOrder ctx').map (L4Event.under id)
      = (inspectOutOfOrder ctx).map (L4Event.under (FlowKey.rename r)) := by
  have hooo : ctx'.delta.isOutOfOrder = ctx.delta.isOutOfOrder := by rw [h.delta]; rfl
  simp only [inspectOutOfOrder, hooo, h.key, h.nowNs]
  split_ifs <;> rfl

/-- So does that of duplicate ACKs. -/
theorem dupAck (h : ctx.Renamed r ctx') :
    (inspectDupAck ctx').map (L4Event.under id)
      = (inspectDupAck ctx).map (L4Event.under (FlowKey.rename r)) := by
  have hdup : ctx'.delta.isDupAck = ctx.delta.isDupAck := by rw [h.delta]; rfl
  have hcount : ctx'.delta.dupAckCount = ctx.delta.dupAckCount := by rw [h.delta]; rfl
  simp only [inspectDupAck, hdup, hcount, h.cfg, h.key, h.nowNs]
  split_ifs <;> rfl

/-- So does that of closed windows. -/
theorem zeroWindow (h : ctx.Renamed r ctx') :
    (inspectZeroWindow ctx').map (L4Event.under id)
      = (inspectZeroWindow ctx).map (L4Event.under (FlowKey.rename r)) := by
  have hedge : ctx'.delta.zeroWindowEdge = ctx.delta.zeroWindowEdge := by rw [h.delta]; rfl
  simp only [inspectZeroWindow, hedge, h.key, h.nowNs]
  split_ifs <;> rfl

/-- So does that of round trips. -/
theorem highRtt (h : ctx.Renamed r ctx') :
    (inspectHighRtt ctx').map (L4Event.under id)
      = (inspectHighRtt ctx).map (L4Event.under (FlowKey.rename r)) := by
  have hrtt : ctx'.delta.rttSampleNs = ctx.delta.rttSampleNs := by rw [h.delta]; rfl
  simp only [inspectHighRtt, hrtt, h.cfg, h.key, h.nowNs]
  cases ctx.delta.rttSampleNs with
  | none => rfl
  | some rtt =>
      rw [Option.bind_eq_bind, Option.bind_eq_bind, Option.bind_some, Option.bind_some]
      split_ifs <;> rfl

/-- So does that of refused connections. -/
theorem handshakeFailure (h : ctx.Renamed r ctx') :
    (inspectHandshakeFailure ctx').map (L4Event.under id)
      = (inspectHandshakeFailure ctx).map (L4Event.under (FlowKey.rename r)) := by
  have hrefused : ctx'.delta.handshakeRefused = ctx.delta.handshakeRefused := by rw [h.delta]; rfl
  simp only [inspectHandshakeFailure, hrefused, h.key, h.nowNs]
  split_ifs <;> rfl

omit [F64 F] in
/-- The debounce looks at the threshold and the time only. -/
theorem debounced_under (b : Debounce) (below : Bool) (now : ℕ) {ev ev' : L4Event F}
    (h : ev'.under id = ev.under (FlowKey.rename r)) :
    (debounced b below now ev').1 = (debounced b below now ev).1 ∧
      (debounced b below now ev').2.map (L4Event.under id)
        = (debounced b below now ev).2.map (L4Event.under (FlowKey.rename r)) := by
  simp only [debounced]
  split_ifs
  · exact ⟨rfl, rfl⟩
  · exact ⟨rfl, congrArg some h⟩
  · exact ⟨rfl, rfl⟩

/-- So does that of resets. -/
theorem rstStorm (h : ctx.Renamed r ctx') (b : Debounce) :
    (inspectRstStorm b ctx').1 = (inspectRstStorm b ctx).1 ∧
      (inspectRstStorm b ctx').2.map (L4Event.under id)
        = (inspectRstStorm b ctx).2.map (L4Event.under (FlowKey.rename r)) := by
  have hrst : ctx'.delta.rst = ctx.delta.rst := by rw [h.delta]; rfl
  have hrate : ctx'.globals.rstRate = ctx.globals.rstRate := h.state.globals.rstRate
  simp only [inspectRstStorm, hrst, hrate, h.cfg, h.key, h.nowNs]
  split_ifs
  · exact ⟨rfl, rfl⟩
  · exact debounced_under b _ _ rfl

/-- So does that of the backlog, which is that of the renamed service. -/
theorem synBacklog (h : ctx.Renamed r ctx') (b : Debounce) :
    (inspectSynBacklog b ctx').1 = (inspectSynBacklog b ctx).1 ∧
      (inspectSynBacklog b ctx').2.map (L4Event.under id)
        = (inspectSynBacklog b ctx).2.map (L4Event.under (FlowKey.rename r)) := by
  simp only [inspectSynBacklog, h.flow, h.cfg, h.key, h.nowNs]
  cases ctx.flow with
  | none => exact ⟨rfl, rfl⟩
  | some f =>
      have hcount : ctx'.globals.halfOpenFor (f.rename r (ctx.key.swapped r)).service
          = ctx.globals.halfOpenFor f.service := h.state.globals.halfOpenFor f.service
      simp only [Option.map_some, hcount]
      exact debounced_under b _ _ rfl

/-- So does that of new flows. -/
theorem churn (h : ctx.Renamed r ctx') (b : Debounce) :
    (inspectChurn b ctx').1 = (inspectChurn b ctx).1 ∧
      (inspectChurn b ctx').2.map (L4Event.under id)
        = (inspectChurn b ctx).2.map (L4Event.under (FlowKey.rename r)) := by
  have hnew : ctx'.delta.newFlow = ctx.delta.newFlow := by rw [h.delta]; rfl
  have hrate : ctx'.globals.newFlowRate = ctx.globals.newFlowRate := h.state.globals.newFlowRate
  simp only [inspectChurn, hnew, hrate, h.cfg, h.key, h.nowNs]
  split_ifs
  · exact ⟨rfl, rfl⟩
  · exact debounced_under b _ _ rfl

end DetectCtx.Renamed

/-! ## The detector chain -/

/-- A detector ends in the same state and reports the same event under the new names. -/
theorem Detector.inspect_renamed {ctx ctx' : DetectCtx F} (h : ctx.Renamed r ctx')
    (d : Detector) : (d.inspect ctx').1 = (d.inspect ctx).1 ∧
      (d.inspect ctx').2.map (L4Event.under id)
        = (d.inspect ctx).2.map (L4Event.under (FlowKey.rename r)) := by
  cases d with
  | retransmission => exact ⟨rfl, h.retransmission⟩
  | outOfOrder => exact ⟨rfl, h.outOfOrder⟩
  | dupAck => exact ⟨rfl, h.dupAck⟩
  | zeroWindow => exact ⟨rfl, h.zeroWindow⟩
  | highRtt => exact ⟨rfl, h.highRtt⟩
  | handshakeFailure => exact ⟨rfl, h.handshakeFailure⟩
  | rstStorm b => exact ⟨congrArg Detector.rstStorm (h.rstStorm b).1, (h.rstStorm b).2⟩
  | synBacklog b => exact ⟨congrArg Detector.synBacklog (h.synBacklog b).1, (h.synBacklog b).2⟩
  | churn b => exact ⟨congrArg Detector.churn (h.churn b).1, (h.churn b).2⟩

namespace Engine

/-- The whole chain. -/
theorem inspectAll_renamed {ctx ctx' : DetectCtx F} (h : ctx.Renamed r ctx')
    (detectors : List Detector) : (inspectAll ctx' detectors).1 = (inspectAll ctx detectors).1 ∧
      EventsRenamed r (inspectAll ctx detectors).2 (inspectAll ctx' detectors).2 := by
  have hstates : ((fun d => (d.inspect ctx').1) : Detector → Detector)
      = fun d => (d.inspect ctx).1 := by
    funext d
    exact (d.inspect_renamed h).1
  have hevents : (fun d : Detector => (d.inspect ctx').2.map (L4Event.under id))
      = fun d => (d.inspect ctx).2.map (L4Event.under (FlowKey.rename r)) := by
    funext d
    exact (d.inspect_renamed h).2
  constructor
  · simp only [inspectAll, List.map_map, Function.comp_def]
    rw [hstates]
  · rw [EventsRenamed]
    simp only [inspectAll, List.filterMap_map, List.map_filterMap, Function.comp_def]
    rw [hevents]

/-- What `process` does after `update`, on the state `t`. -/
def inspectAndSweep (e : Engine F) (pkt : PacketMeta) (t : EngineState F) (key : FlowKey)
    (delta : PacketDelta) : Engine F × List (L4Event F) :=
  let r := inspectAll { state := t, key, delta, nowNs := pkt.tsNanos } e.detectors
  let e' := { e with state := t, detectors := r.1 }
  if e.sweepIntervalNs ≤ pkt.tsNanos - e.lastSweepNs then
    let w := { e' with lastSweepNs := pkt.tsNanos }.sweep pkt.tsNanos
    (w.1, r.2 ++ w.2)
  else (e', r.2)

/-- One call of `process`, with the tables in any arrangement when the sweep starts. -/
inductive Processes (e : Engine F) (pkt : PacketMeta) : List (L4Event F) → Engine F → Prop
  | mk {t : EngineState F} (h : (e.state.update pkt).1.SameTables t) :
      Processes e pkt
        (e.inspectAndSweep pkt t (e.state.update pkt).2.1 (e.state.update pkt).2.2).2
        (e.inspectAndSweep pkt t (e.state.update pkt).2.1 (e.state.update pkt).2.2).1

/-- The arrangement in which the packet's flow comes first is one of them. -/
theorem processes_process (e : Engine F) (pkt : PacketMeta) :
    e.Processes pkt (e.process pkt).2 (e.process pkt).1 :=
  Processes.mk (EngineState.SameTables.refl _)

/-- A run of `process`, with the events of each call, over tables in any arrangement. -/
inductive HashRun : Engine F → List PacketMeta → List (List (L4Event F)) → Engine F → Prop
  | nil (e : Engine F) : HashRun e [] [] e
  | cons {e e' e'' : Engine F} {pkt : PacketMeta} {pkts : List PacketMeta}
      {evs : List (L4Event F)} {outs : List (List (L4Event F))} :
      e.Processes pkt evs e' → HashRun e' pkts outs e'' → HashRun e (pkt :: pkts) (evs :: outs) e''

/-- The run of the engine is one of these. -/
theorem hashRun_after (e : Engine F) (pkts : List PacketMeta) :
    HashRun e pkts ((machine.log e (pkts.map Call.process)).map Machine.Entry.output)
      (machine.after e (pkts.map Call.process)) := by
  induction pkts generalizing e with
  | nil => exact HashRun.nil e
  | cons pkt pkts ih => exact HashRun.cons (processes_process e pkt) (ih (e.process pkt).1)

/-- `e'` is `e` under the new names. -/
structure Renamed (r : IpAddr → IpAddr) (e e' : Engine F) : Prop where
  state : e.state.Renamed r e'.state
  detectors : e'.detectors = e.detectors
  lastSweepNs : e'.lastSweepNs = e.lastSweepNs
  sweepIntervalNs : e'.sweepIntervalNs = e.sweepIntervalNs

/-- One call, on both sides. -/
theorem Renamed.processes (hr : Function.Injective r) {e e' f f' : Engine F}
    (h : e.Renamed r e') {pkt : PacketMeta} (hobs : pkt.Observed) {evs evs' : List (L4Event F)}
    (hp : e.Processes pkt evs f) (hp' : e'.Processes (pkt.rename r) evs' f') :
    f.Renamed r f' ∧ EventsRenamed r evs evs' := by
  obtain ⟨ht⟩ := hp
  obtain ⟨ht'⟩ := hp'
  rename_i t t'
  -- `t` and `t'` are the updated states with their entries in some hash order
  obtain ⟨hstate, hdelta⟩ := h.state.update hr hobs
  have hren := hstate.sameTables ht ht'
  have hctx : DetectCtx.Renamed r
      { state := t, key := (e.state.update pkt).2.1, delta := (e.state.update pkt).2.2,
        nowNs := pkt.tsNanos }
      { state := t', key := (e'.state.update (pkt.rename r)).2.1,
        delta := (e'.state.update (pkt.rename r)).2.2, nowNs := pkt.tsNanos } :=
    ⟨hren, hobs.canonical, PacketMeta.key_rename pkt, hdelta, rfl⟩
  have hts : (pkt.rename r).tsNanos = pkt.tsNanos := rfl
  obtain ⟨hdet, hevs⟩ := inspectAll_renamed hctx e.detectors
  simp only [inspectAndSweep, hts, h.detectors, h.lastSweepNs, h.sweepIntervalNs]
  split_ifs
  · constructor
    · exact ⟨hren.sweep hr _, hdet, rfl, rfl⟩
    · rw [EventsRenamed, List.map_append, List.map_append]
      exact hevs.append (hren.sweep_events hr _)
  · exact ⟨⟨hren, hdet, rfl, rfl⟩, hevs⟩

/-- A run, on both sides. -/
theorem Renamed.hashRun (hr : Function.Injective r) {e e' f f' : Engine F}
    (h : e.Renamed r e') {pkts : List PacketMeta} (hobs : ∀ p ∈ pkts, p.Observed)
    {outs outs' : List (List (L4Event F))} (hrun : HashRun e pkts outs f)
    (hrun' : HashRun e' (pkts.map (PacketMeta.rename r)) outs' f') :
    f.Renamed r f' ∧ List.Forall₂ (EventsRenamed r) outs outs' := by
  induction hrun generalizing e' outs' with
  | nil =>
      cases hrun'
      exact ⟨h, List.Forall₂.nil⟩
  | cons hp _ ih =>
      cases hrun' with
      | cons hp' hrest' =>
          obtain ⟨hstep, hevs⟩ := h.processes hr (hobs _ List.mem_cons_self) hp hp'
          obtain ⟨hend, houts⟩ := ih hstep (fun p hp => hobs p (List.mem_cons_of_mem _ hp)) hrest'
          exact ⟨hend, List.Forall₂.cons hevs houts⟩

/-- **The engine does not care which endpoint is the low one.**  On packets with their addresses
renamed one to one it reports, call by call, the same events under the renamed keys, up to order;
and it ends with the same tables under the new names, the per-direction slots of a flow exchanged
exactly where the renaming reverses the order of its endpoints.  This holds for every arrangement
of the tables on either side. -/
theorem renaming_invariant (hr : Function.Injective r) (cfg : DetectConfig F)
    {pkts : List PacketMeta} (hobs : ∀ p ∈ pkts, p.Observed) {outs outs' : List (List (L4Event F))}
    {e e' : Engine F} (hrun : HashRun (new cfg) pkts outs e)
    (hrun' : HashRun (new cfg) (pkts.map (PacketMeta.rename r)) outs' e') :
    List.Forall₂ (fun evs evs' =>
        (evs'.map (L4Event.under id)).Perm (evs.map (L4Event.under (FlowKey.rename r)))) outs outs' ∧
      e'.state.flows.entries.Perm
        (e.state.flows.entries.map fun ent => ⟨ent.1.rename r, ent.2.rename r (ent.1.swapped r)⟩) ∧
      e'.state.globals.halfOpen.entries.Perm
        (e.state.globals.halfOpen.entries.map fun ent => ⟨ent.1.rename r, ent.2⟩) ∧
      e'.state.globals.rstRate = e.state.globals.rstRate ∧
      e'.state.globals.newFlowRate = e.state.globals.newFlowRate := by
  have hnew : (new cfg).Renamed r (new cfg) := ⟨EngineState.new_renamed cfg, rfl, rfl, rfl⟩
  obtain ⟨hend, houts⟩ := hnew.hashRun hr hobs hrun hrun'
  refine ⟨houts, ?_, ?_, hend.state.globals.rstRate, hend.state.globals.newFlowRate⟩
  · exact hend.state.flows.entries_perm (FlowKey.rename_injOn hr)
  · exact hend.state.globals.halfOpen.entries_perm (Globals.endpoint_rename_injOn hr)

/-- The connection request of a client and the refusal of the server. -/
def refusedRun : List PacketMeta :=
  [Sample.tcp 5 (Sample.ep 1 5002) (Sample.ep 2 80) 0x02 100 0 64240 0,
    Sample.tcp 6 (Sample.ep 2 80) (Sample.ep 1 5002) 0x14 0 101 0 0]

/-- Client and server exchange their addresses, and with them the order of the endpoints. -/
theorem renaming_invariant_refused :
    let r : IpAddr → IpAddr := Equiv.swap (Sample.ep 1 0).ip (Sample.ep 2 0).ip
    let outs := fun pkts : List PacketMeta =>
      (machine.log (new (DetectConfig.default ℚ)) (pkts.map Call.process)).map Machine.Entry.output
    refusedRun.map (fun p => p.key.swapped r) = [true, true] ∧
      List.Forall₂ (fun evs evs' : List (L4Event ℚ) =>
          (evs'.map (L4Event.under id)).Perm (evs.map (L4Event.under (FlowKey.rename r))))
        (outs refusedRun) (outs (refusedRun.map (PacketMeta.rename r))) := by
  intro r outs
  have hobs : ∀ p ∈ refusedRun, p.Observed := by
    intro p hp
    simp only [refusedRun, List.mem_cons, List.not_mem_nil, or_false] at hp
    rcases hp with rfl | rfl
    · exact ⟨Sample.ep 1 5002, Sample.ep 2 80, rfl⟩
    · exact ⟨Sample.ep 2 80, Sample.ep 1 5002, rfl⟩
  refine ⟨by decide, ?_⟩
  exact (renaming_invariant (Equiv.injective _) (DetectConfig.default ℚ) hobs
    (hashRun_after _ _) (hashRun_after _ _)).1

end Engine
