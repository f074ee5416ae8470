/-
# The detector chain

Every detector emits events of one kind, about the flow and at the time of the packet it
inspects, so the alerts of a kind in a call are those of the detectors of that kind
(`Engine.alerts_process`).  Along every run the chain is the default one; only the debounces of
its three host-wide detectors move (`Engine.detectors_after`).
-/
import L4Scope.FlowStep

variable {F : Type} [F64 F]

/-! ## What a detector emits -/

/-- The kind of a detector's events. -/
def Detector.kind : Detector → EventKind
  | retransmission => .retransmission
  | outOfOrder => .outOfOrder
  | dupAck => .duplicateAck
  | zeroWindow => .zeroWindow
  | highRtt => .highRtt
  | handshakeFailure => .handshakeFailure
  | rstStorm _ => .rstStorm
  | synBacklog _ => .synBacklog
  | churn _ => .connectionChurn

/-- The event is of the kind, about the packet's flow and at the packet's time. -/
def DetectCtx.Emits (ctx : DetectCtx F) (k : EventKind) (ev : L4Event F) : Prop :=
  ev.kind = k ∧ ev.key = ctx.key ∧ ev.tsNanos = ctx.nowNs

omit [F64 F] in
/-- The debounce moves only when the rate is not below its threshold. -/
theorem debounced_fst (b : Debounce) (below : Bool) (now : ℕ) (ev : L4Event F) :
    (debounced b below now ev).1 = if below then b else (b.ready now).1 := by
  cases below <;> rfl

omit [F64 F] in
/-- An event passes if the debounce lets it through. -/
theorem debounced_isSome (b : Debounce) (below : Bool) (now : ℕ) (ev : L4Event F) :
    (debounced b below now ev).2.isSome = (!below && (b.ready now).2) := by
  cases below with
  | true => rfl
  | false =>
      rw [debounced, if_neg (by decide)]
      dsimp only
      cases (b.ready now).2 <;> rfl

omit [F64 F] in
/-- The debounce passes an event on as it is. -/
theorem debounced_emits {ctx : DetectCtx F} {k : EventKind} {b : Debounce} {below : Bool}
    {now : ℕ} {ev ev' : L4Event F} (hev : ctx.Emits k ev)
    (h : (debounced b below now ev).2 = some ev') : ctx.Emits k ev' := by
  unfold debounced at h
  split_ifs at h
  dsimp only at h
  split_ifs at h
  cases h
  exact hev

/-- An alert of the retransmission detector. -/
theorem inspectRetransmission_emits {ctx : DetectCtx F} {ev : L4Event F}
    (h : inspectRetransmission ctx = some ev) : ctx.Emits .retransmission ev := by
  cases hflow : ctx.flow with
  | none => simp [inspectRetransmission, hflow] at h
  | some flow =>
      simp only [inspectRetransmission, hflow] at h
      simp at h
      obtain ⟨-, -, rfl⟩ := h
      exact ⟨rfl, rfl, rfl⟩

/-- An alert of the round trip detector. -/
theorem inspectHighRtt_emits {ctx : DetectCtx F} {ev : L4Event F}
    (h : inspectHighRtt ctx = some ev) : ctx.Emits .highRtt ev := by
  cases hrtt : ctx.delta.rttSampleNs with
  | none => simp [inspectHighRtt, hrtt] at h
  | some rtt =>
      simp only [inspectHighRtt, hrtt] at h
      simp at h
      obtain ⟨-, rfl⟩ := h
      exact ⟨rfl, rfl, rfl⟩

/-- **A detector's events** are of its kind. -/
theorem Detector.inspect_emits {ctx : DetectCtx F} {d : Detector} {ev : L4Event F}
    (h : (d.inspect ctx).2 = some ev) : ctx.Emits d.kind ev := by
  cases d with
  | retransmission => exact inspectRetransmission_emits h
  | highRtt => exact inspectHighRtt_emits h
  | rstStorm b =>
      simp only [inspect, inspectRstStorm] at h
      split_ifs at h
      exact debounced_emits ⟨rfl, rfl, rfl⟩ h
  | churn b =>
      simp only [inspect, inspectChurn] at h
      split_ifs at h
      exact debounced_emits ⟨rfl, rfl, rfl⟩ h
  | synBacklog b =>
      simp only [inspect, inspectSynBacklog] at h
      cases hflow : ctx.flow with
      | none => simp [hflow] at h
      | some flow =>
          simp only [hflow] at h
          exact debounced_emits ⟨rfl, rfl, rfl⟩ h
  | outOfOrder =>
      simp only [inspect, inspectOutOfOrder] at h
      split_ifs at h
      cases h
      exact ⟨rfl, rfl, rfl⟩
  | dupAck =>
      simp only [inspect, inspectDupAck] at h
      split_ifs at h
      cases h
      exact ⟨rfl, rfl, rfl⟩
  | zeroWindow =>
      simp only [inspect, inspectZeroWindow] at h
      split_ifs at h
      cases h
      exact ⟨rfl, rfl, rfl⟩
  | handshakeFailure =>
      simp only [inspect, inspectHandshakeFailure] at h
      split_ifs at h
      cases h
      exact ⟨rfl, rfl, rfl⟩

/-! ## The chain -/

/-- A call of a run of the engine. -/
abbrev CallEntry (F : Type) := Machine.Entry (Engine F) Call (List (L4Event F))

/-- The debounces of the host-wide detectors. -/
structure Debounces where
  rst : Debounce
  syn : Debounce
  churn : Debounce

namespace Debounces

/-- The default chain with these debounces. -/
def chain (d : Debounces) : List Detector :=
  [.retransmission, .outOfOrder, .dupAck, .zeroWindow, .highRtt, .handshakeFailure,
    .rstStorm d.rst, .synBacklog d.syn, .churn d.churn]

/-- Three debounces that have not passed anything. -/
def new (gapSecs : ℕ) : Debounces := ⟨.new gapSecs, .new gapSecs, .new gapSecs⟩

/-- The debounces after a packet. -/
def next (d : Debounces) (ctx : DetectCtx F) : Debounces where
  rst := (inspectRstStorm d.rst ctx).1
  syn := (inspectSynBacklog d.syn ctx).1
  churn := (inspectChurn d.churn ctx).1

end Debounces

omit [F64 F] in
/-- The default chain has fresh debounces. -/
theorem defaultDetectors_eq (cfg : DetectConfig F) :
    defaultDetectors cfg = (Debounces.new cfg.alertDebounceSecs).chain := rfl

namespace Engine

/-- What the detectors see of a packet. -/
def ctx (e : Engine F) (pkt : PacketMeta) : DetectCtx F where
  state := (e.state.update pkt).1
  key := pkt.key
  delta := (e.state.update pkt).2.2
  nowNs := pkt.tsNanos

/-- The events of one kind. -/
def alerts (k : EventKind) (events : List (L4Event F)) : List (L4Event F) :=
  events.filter fun ev => ev.kind = k

/-- A packet moves the chain as `inspectAll` does. -/
theorem process_detectors (e : Engine F) (pkt : PacketMeta) :
    (e.process pkt).1.detectors = (inspectAll (e.ctx pkt) e.detectors).1 := by
  rw [process]
  split <;> rfl

/-- The events of a packet: those of the chain, then those of the sweep if one is due. -/
theorem process_events (e : Engine F) (pkt : PacketMeta) :
    (e.process pkt).2 = (inspectAll (e.ctx pkt) e.detectors).2
      ++ if e.sweepIntervalNs ≤ pkt.tsNanos - e.lastSweepNs then
          ((e.state.update pkt).1.sweep pkt.tsNanos).2
        else [] := by
  rw [process]
  split
  · rfl
  · rw [List.append_nil]
    rfl

/-- It moves the debounces only. -/
theorem inspectAll_chain (ctx : DetectCtx F) (d : Debounces) :
    (inspectAll ctx d.chain).1 = (d.next ctx).chain := rfl

/-- **The chain of every run** is the default one, up to its debounces. -/
theorem detectors_after (cfg : DetectConfig F) (calls : List Call) :
    ∃ d : Debounces, (machine.after (new cfg) calls).detectors = d.chain := by
  refine machine.after_invariant (P := fun e => ∃ d : Debounces, e.detectors = d.chain)
    ⟨_, defaultDetectors_eq cfg⟩ ?_
  rintro ⟨e, c, out⟩ - ⟨d, hd⟩
  cases c with
  | process pkt =>
      refine ⟨d.next (e.ctx pkt), ?_⟩
      rw [step_process, process_detectors, hd, inspectAll_chain]
  | sweep now => exact ⟨d, hd⟩

/-- The events of a kind are those of the detectors of that kind. -/
theorem alerts_inspectAll (ctx : DetectCtx F) (detectors : List Detector) (k : EventKind) :
    alerts k (inspectAll ctx detectors).2
      = (detectors.filter fun d => d.kind = k).filterMap fun d => (d.inspect ctx).2 := by
  let f (d : Detector) : Option (L4Event F) := (d.inspect ctx).2
  have hmap : (inspectAll ctx detectors).2 = detectors.filterMap f := List.filterMap_map
  rw [hmap, alerts]
  induction detectors with
  | nil => rfl
  | cons d ds ih =>
      have ih := ih List.filterMap_map
      cases hd : f d with
      | none =>
          rw [List.filterMap_cons_none hd, ih, List.filter_cons]
          split_ifs
          · exact (List.filterMap_cons_none hd).symm
          · rfl
      | some ev =>
          have hkind := (Detector.inspect_emits hd).1
          rw [List.filterMap_cons_some hd, List.filter_cons, List.filter_cons, hkind]
          split_ifs
          · rw [ih]
            exact (List.filterMap_cons_some hd).symm
          · exact ih

/-- A sweep reports nothing but handshake timeouts. -/
theorem alerts_sweep (s : EngineState F) (now : ℕ) {k : EventKind} (hk : k ≠ .handshakeTimeout) :
    alerts k (s.sweep now).2 = [] := by
  rw [alerts, List.filter_eq_nil_iff]
  intro ev hev
  obtain ⟨key, f, -, -, rfl⟩ := EngineState.mem_sweep_events.1 hev
  rw [decide_eq_true_eq]
  exact hk.symm

/-- **The alerts of a packet**, kind by kind. -/
theorem alerts_process (e : Engine F) (pkt : PacketMeta) {k : EventKind}
    (hk : k ≠ .handshakeTimeout) :
    alerts k (e.process pkt).2
      = (e.detectors.filter fun d => d.kind = k).filterMap fun d => (d.inspect (e.ctx pkt)).2 := by
  have hsweep : alerts k (if e.sweepIntervalNs ≤ pkt.tsNanos - e.lastSweepNs then
      ((e.state.update pkt).1.sweep pkt.tsNanos).2 else []) = [] := by
    split
    · exact alerts_sweep _ _ hk
    · rfl
  have hsplit (a b : List (L4Event F)) : alerts k (a ++ b) = alerts k a ++ alerts k b :=
    List.filter_append a b
  rw [process_events, hsplit, hsweep, List.append_nil, alerts_inspectAll]

/-- The alerts of a kind that has one detector. -/
theorem alerts_process_one {e : Engine F} {k : EventKind} (hk : k ≠ .handshakeTimeout)
    {d : Detector} (hd : (e.detectors.filter fun d => d.kind = k) = [d]) (pkt : PacketMeta) :
    alerts k (e.process pkt).2 = (d.inspect (e.ctx pkt)).2.toList := by
  rw [alerts_process e pkt hk, hd]
  cases hev : (d.inspect (e.ctx pkt)).2 <;> simp [hev]

end Engine
