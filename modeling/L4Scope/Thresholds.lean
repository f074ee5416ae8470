/-
# What the thresholds decide

The flow state is driven by the packets and two of the thresholds, the flow TTL and the handshake
timeout.  The others are only read by the detectors, each by the detector of its own kind of
event.  So two engines that agree on what one kind of event depends on report the same events of
that kind, call by call, whatever else is configured and whatever other detectors run.

Changing the thresholds of a state is an operation (`EngineState.withCfg`) that every step of the
flow state commutes with.
-/
import L4Scope.DetectorChain
import L4Scope.SweepClock

variable {F : Type}

/-! ## The flow state under other thresholds -/

/-- The thresholds of the flow state are the same. -/
structure DetectConfig.SameFlows (c c' : DetectConfig F) : Prop where
  flowTtlSecs : c'.flowTtlSecs = c.flowTtlSecs
  handshakeTimeoutSecs : c'.handshakeTimeoutSecs = c.handshakeTimeoutSecs

namespace EngineState

/-- The same flows and counters, under other thresholds. -/
def withCfg (c : DetectConfig F) (s : EngineState F) : EngineState F := { s with cfg := c }

/-- A packet does not read the configuration. -/
theorem update_withCfg (c : DetectConfig F) (s : EngineState F) (pkt : PacketMeta) :
    (s.withCfg c).update pkt = ((s.update pkt).1.withCfg c, (s.update pkt).2) := rfl

/-- Nor does evicting a flow. -/
theorem evict_withCfg (c : DetectConfig F) (s : EngineState F) (k : FlowKey) :
    evict (s.withCfg c) k = (evict s k).withCfg c := by
  have hflows : (s.withCfg c).flows = s.flows := rfl
  rw [evict, evict, hflows]
  cases s.flows.lookup k <;> rfl

/-- Nor does evicting some. -/
theorem foldl_evict_withCfg (c : DetectConfig F) (ks : List FlowKey) (s : EngineState F) :
    ks.foldl evict (s.withCfg c) = (ks.foldl evict s).withCfg c := by
  induction ks generalizing s with
  | nil => rfl
  | cons k ks ih => rw [List.foldl_cons, List.foldl_cons, evict_withCfg, ih]

variable [F64 F]

/-- Nor does flagging a flow. -/
theorem flagTimeout_withCfg (c : DetectConfig F) (now : ℕ) (s : EngineState F)
    (evs : List (L4Event F)) (k : FlowKey) :
    flagTimeout now (s.withCfg c, evs) k
      = ((flagTimeout now (s, evs) k).1.withCfg c, (flagTimeout now (s, evs) k).2) := by
  have hflows : (s.withCfg c).flows = s.flows := rfl
  simp only [flagTimeout, hflows]
  cases s.flows.lookup k <;> rfl

/-- Nor does flagging some. -/
theorem foldl_flagTimeout_withCfg (c : DetectConfig F) (now : ℕ) (ks : List FlowKey)
    (s : EngineState F) (evs : List (L4Event F)) :
    ks.foldl (flagTimeout now) (s.withCfg c, evs)
      = ((ks.foldl (flagTimeout now) (s, evs)).1.withCfg c,
        (ks.foldl (flagTimeout now) (s, evs)).2) := by
  induction ks generalizing s evs with
  | nil => rfl
  | cons k ks ih => rw [List.foldl_cons, List.foldl_cons, flagTimeout_withCfg, ih]

/-- A sweep reads the TTL and the handshake timeout only. -/
theorem sweep_withCfg {c : DetectConfig F} {s : EngineState F} (h : s.cfg.SameFlows c) (now : ℕ) :
    (s.withCfg c).sweep now = ((s.sweep now).1.withCfg c, (s.sweep now).2) := by
  have hcfg : (s.withCfg c).cfg = c := rfl
  have hflows : (s.withCfg c).flows = s.flows := rfl
  rw [sweep_eq, sweep_eq, hcfg, hflows, h.flowTtlSecs, h.handshakeTimeoutSecs]
  dsimp only
  rw [foldl_flagTimeout_withCfg, foldl_evict_withCfg]

end EngineState

/-! ## The detectors under other thresholds -/

/-- What the events of kind `k` depend on besides the flow state is the same. -/
def DetectConfig.SameFor (c c' : DetectConfig F) : EventKind → Prop
  | .retransmission => c'.retransmitRatioWarn = c.retransmitRatioWarn
  | .duplicateAck => c'.dupAckThreshold = c.dupAckThreshold
  | .rstStorm => c'.rstStormPerSec = c.rstStormPerSec
  | .synBacklog => c'.synBacklogThreshold = c.synBacklogThreshold
  | .highRtt => c'.rttWarnMs = c.rttWarnMs
  | .connectionChurn => c'.churnPerSec = c.churnPerSec
  | .outOfOrder | .zeroWindow | .handshakeFailure | .handshakeTimeout => True

/-- The same packet, seen under other thresholds. -/
def DetectCtx.withCfg (c : DetectConfig F) (ctx : DetectCtx F) : DetectCtx F :=
  { ctx with state := ctx.state.withCfg c }

variable [F64 F]

/-- **A detector reads no threshold but its own.** -/
theorem Detector.inspect_withCfg {c : DetectConfig F} {ctx : DetectCtx F} {d : Detector}
    (h : ctx.cfg.SameFor c d.kind) : d.inspect (ctx.withCfg c) = d.inspect ctx := by
  have hcfg : (ctx.withCfg c).cfg = c := rfl
  have hflow : (ctx.withCfg c).flow = ctx.flow := rfl
  have hglobals : (ctx.withCfg c).globals = ctx.globals := rfl
  have hdelta : (ctx.withCfg c).delta = ctx.delta := rfl
  have hkey : (ctx.withCfg c).key = ctx.key := rfl
  have hnow : (ctx.withCfg c).nowNs = ctx.nowNs := rfl
  cases d with
  | retransmission =>
      have h : c.retransmitRatioWarn = ctx.cfg.retransmitRatioWarn := h
      simp only [inspect, inspectRetransmission, hcfg, hflow, hdelta, hkey, hnow, h]
  | outOfOrder => rfl
  | dupAck =>
      have h : c.dupAckThreshold = ctx.cfg.dupAckThreshold := h
      simp only [inspect, inspectDupAck, hcfg, hdelta, hkey, hnow, h]
  | zeroWindow => rfl
  | highRtt =>
      have h : c.rttWarnMs = ctx.cfg.rttWarnMs := h
      simp only [inspect, inspectHighRtt, hcfg, hdelta, hkey, hnow, h]
  | handshakeFailure => rfl
  | rstStorm b =>
      have h : c.rstStormPerSec = ctx.cfg.rstStormPerSec := h
      simp only [inspect, inspectRstStorm, hcfg, hglobals, hdelta, hkey, hnow, h]
  | synBacklog b =>
      have h : c.synBacklogThreshold = ctx.cfg.synBacklogThreshold := h
      simp only [inspect, inspectSynBacklog, hcfg, hflow, hglobals, hkey, hnow, h]
  | churn b =>
      have h : c.churnPerSec = ctx.cfg.churnPerSec := h
      simp only [inspect, inspectChurn, hcfg, hglobals, hdelta, hkey, hnow, h]

/-- A detector stays of its kind. -/
theorem Detector.kind_inspect (ctx : DetectCtx F) (d : Detector) :
    (d.inspect ctx).1.kind = d.kind := by
  cases d <;> rfl

namespace Engine

/-- The detectors of one kind after a packet are those before it, one packet on. -/
theorem filter_inspectAll (ctx : DetectCtx F) (ds : List Detector) (k : EventKind) :
    (inspectAll ctx ds).1.filter (fun d => d.kind = k)
      = (ds.filter fun d => d.kind = k).map fun d => (d.inspect ctx).1 := by
  rw [inspectAll]
  simp only [List.map_map, List.filter_map, Function.comp_def, Detector.kind_inspect]

/-! ## Two engines -/

/-- Two engines with the same flow state, whose thresholds and detectors may differ except in
what the events of kind `k` depend on. -/
structure Alike (k : EventKind) (e e' : Engine F) : Prop where
  state : e'.state = e.state.withCfg e'.state.cfg
  sameFlows : e.state.cfg.SameFlows e'.state.cfg
  sameFor : e.state.cfg.SameFor e'.state.cfg k
  detectors : (e'.detectors.filter fun d => d.kind = k) = e.detectors.filter fun d => d.kind = k
  lastSweepNs : e'.lastSweepNs = e.lastSweepNs
  sweepIntervalNs : e'.sweepIntervalNs = e.sweepIntervalNs

variable {k : EventKind} {e e' : Engine F}

/-- A sweep, on both sides. -/
theorem Alike.sweep (h : e.Alike k e') (now : ℕ) :
    (e.sweep now).1.Alike k (e'.sweep now).1 ∧ (e'.sweep now).2 = (e.sweep now).2 := by
  have hswept := EngineState.sweep_withCfg h.sameFlows now
  rw [← h.state] at hswept
  have hcfg := EngineState.sweep_cfg e.state now
  have hcfg' := EngineState.sweep_cfg e'.state now
  constructor
  · constructor
    · show (e'.state.sweep now).1 = (e.state.sweep now).1.withCfg (e'.state.sweep now).1.cfg
      rw [hcfg', hswept]
    · show (e.state.sweep now).1.cfg.SameFlows (e'.state.sweep now).1.cfg
      rw [hcfg, hcfg']
      exact h.sameFlows
    · show (e.state.sweep now).1.cfg.SameFor (e'.state.sweep now).1.cfg k
      rw [hcfg, hcfg']
      exact h.sameFor
    · exact h.detectors
    · exact h.lastSweepNs
    · exact h.sweepIntervalNs
  · show (e'.state.sweep now).2 = (e.state.sweep now).2
    rw [hswept]

/-- The alerts of kind `k` of a packet: those of the detectors of the kind, then those of the
sweep if one is due. -/
theorem alerts_process_append (e : Engine F) (pkt : PacketMeta) (k : EventKind) :
    alerts k (e.process pkt).2
      = ((e.detectors.filter fun d => d.kind = k).filterMap fun d => (d.inspect (e.ctx pkt)).2)
        ++ if e.sweepIntervalNs ≤ pkt.tsNanos - e.lastSweepNs then
            alerts k ((e.state.update pkt).1.sweep pkt.tsNanos).2
          else [] := by
  rw [process_events, ← alerts_inspectAll, alerts, List.filter_append, ← alerts]
  split_ifs <;> rfl

/-- A packet keeps the configuration. -/
theorem process_cfg (e : Engine F) (pkt : PacketMeta) :
    (e.process pkt).1.state.cfg = e.state.cfg := by
  rw [process_state]
  split_ifs
  · rw [EngineState.sweep_cfg, EngineState.update_cfg]
  · rfl

/-- A packet, on both sides. -/
theorem Alike.process (h : e.Alike k e') (pkt : PacketMeta) :
    (e.process pkt).1.Alike k (e'.process pkt).1 ∧
      alerts k (e'.process pkt).2 = alerts k (e.process pkt).2 := by
  have hupdate := EngineState.update_withCfg e'.state.cfg e.state pkt
  rw [← h.state] at hupdate
  have hctx : e'.ctx pkt = (e.ctx pkt).withCfg e'.state.cfg := by
    rw [Engine.ctx, Engine.ctx, hupdate]
    rfl
  have hinspect : ∀ d ∈ e.detectors.filter fun d => d.kind = k,
      d.inspect (e'.ctx pkt) = d.inspect (e.ctx pkt) := by
    intro d hd
    have hkind : d.kind = k := by simpa using (List.mem_filter.1 hd).2
    have hsame : (e.ctx pkt).cfg.SameFor e'.state.cfg d.kind := by
      rw [hkind]
      exact h.sameFor
    rw [hctx, Detector.inspect_withCfg hsame]
  have hswept := EngineState.sweep_withCfg (s := (e.state.update pkt).1) h.sameFlows pkt.tsNanos
  have hdetectors : ((e'.process pkt).1.detectors.filter fun d => d.kind = k)
      = (e.process pkt).1.detectors.filter fun d => d.kind = k := by
    rw [process_detectors, process_detectors, filter_inspectAll, filter_inspectAll, h.detectors]
    exact List.map_congr_left fun d hd => congrArg Prod.fst (hinspect d hd)
  constructor
  · constructor
    · rw [process_cfg, process_state, process_state, hupdate, hswept, h.sweepIntervalNs,
        h.lastSweepNs]
      split_ifs <;> rfl
    · rw [process_cfg, process_cfg]
      exact h.sameFlows
    · rw [process_cfg, process_cfg]
      exact h.sameFor
    · exact hdetectors
    · rw [process_lastSweepNs, process_lastSweepNs, h.sweepIntervalNs, h.lastSweepNs]
    · rw [process_sweepIntervalNs, process_sweepIntervalNs, h.sweepIntervalNs]
  · rw [alerts_process_append, alerts_process_append, h.detectors, h.sweepIntervalNs,
      h.lastSweepNs, hupdate, hswept]
    congr 1
    exact List.filterMap_congr fun d hd => congrArg Prod.snd (hinspect d hd)

/-- **Thresholds and detectors do not interfere.**  Run two engines on the same calls, with any
detectors and any thresholds, that agree on the flow TTL, on the handshake timeout, and on what
the events of kind `k` depend on: their own threshold and their own detectors, debounces included.
The two report the same events of kind `k` at every call, and track the same flows and counters. -/
theorem alerts_depend {c c' : DetectConfig F} (hflows : c.SameFlows c') (hfor : c.SameFor c' k)
    {ds ds' : List Detector}
    (hds : (ds'.filter fun d => d.kind = k) = ds.filter fun d => d.kind = k) (calls : List Call) :
    (machine.log ((new c').setDetectors ds') calls).map (fun entry => alerts k entry.output)
        = (machine.log ((new c).setDetectors ds) calls).map (fun entry => alerts k entry.output) ∧
      (machine.after ((new c').setDetectors ds') calls).state
        = (machine.after ((new c).setDetectors ds) calls).state.withCfg c' := by
  have hstart : ((new c).setDetectors ds).Alike k ((new c').setDetectors ds') :=
    ⟨rfl, hflows, hfor, hds, rfl, rfl⟩
  have hstep : ∀ (e e' : Engine F) (call : Call), call ∈ calls → e.Alike k e' →
      (machine.step e call).1.Alike k (machine.step e' call).1 ∧
        alerts k (machine.step e' call).2 = alerts k (machine.step e call).2 := by
    intro e e' call _ h
    cases call with
    | process pkt => exact h.process pkt
    | sweep now =>
        obtain ⟨hswept, hevents⟩ := h.sweep now
        exact ⟨hswept, congrArg (alerts k) hevents⟩
  obtain ⟨hend, hlog⟩ := machine.simulates (N := machine) id (alerts k) (alerts k) hstep hstart
  rw [List.map_id] at hend hlog
  refine ⟨hlog, ?_⟩
  have hcfg : (machine.after ((new c').setDetectors ds') calls).state.cfg = c' := by
    rw [state_after, EngineState.after_cfg]
    rfl
  have hstate := hend.state
  rwa [hcfg] at hstate

/-- Raising every other threshold and running nothing but the retransmission rule leaves the
retransmission events as they are. -/
theorem alerts_depend_retransmission :
    let c := DetectConfig.default ℚ
    let c' : DetectConfig ℚ := { c with
      dupAckThreshold := 100, rstStormPerSec := 5000, synBacklogThreshold := 9000,
      rttWarnMs := 60000, churnPerSec := 90000, alertDebounceSecs := 3600 }
    let calls := [
      Call.process (Sample.tcp 5 (Sample.ep 1 5002) (Sample.ep 2 80) 0x18 100 1 64240 10),
      Call.process (Sample.tcp 6 (Sample.ep 1 5002) (Sample.ep 2 80) 0x18 100 1 64240 10)]
    (machine.log ((new c').setDetectors [.retransmission]) calls).map
        (fun entry => alerts .retransmission entry.output)
      = (machine.log ((new c).setDetectors (defaultDetectors c)) calls).map
        fun entry => alerts .retransmission entry.output := by
  intro c c' calls
  have hflows : c.SameFlows c' := ⟨rfl, rfl⟩
  have hfor : c.SameFor c' .retransmission := rfl
  exact (alerts_depend hflows hfor (by rfl) calls).1

end Engine
