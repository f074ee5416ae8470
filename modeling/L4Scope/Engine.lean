/-
# The detection engine

Owns flow state and the detector chain, ingests packets (`Engine.process`), and sweeps
for time-based conditions and idle flows (`Engine.sweep`).

The flow table is a hash map, whose iteration order is unspecified; here a sweep visits
the flows in the order of the table's entries.  A run whose tables may be rearranged in any
way whenever a sweep starts is an `Engine.HashRun`; what depends on no order is said of those.
-/
import L4Scope.Detectors

variable {F : Type} [F64 F]

/-! ## Sweeping the flow state -/

/-- The SYN of the flow has waited longer than `hto` and was not reported. -/
def FlowState.timedOut (hto now : ℕ) (f : FlowState) : Bool :=
  f.state = .synSent && !f.handshakeTimeoutFlagged &&
    match f.synTimeNs with
    | some t => hto < now - t
    | none => false

/-- The flow has been idle for longer than `ttl`. -/
def FlowState.idle (ttl now : ℕ) (f : FlowState) : Bool := ttl < now - f.lastSeenNs

/-- The event reported for a timed-out flow. -/
def timeoutEvent (now : ℕ) (k : FlowKey) (f : FlowState) : L4Event F :=
  let waited : F := nsToSecsF64 (now - f.synTimeNs.getD now)
  let secs := F64.fixed 1 waited
  { tsNanos := now
    kind := .handshakeTimeout
    severity := .warning
    key := k
    value := waited
    detail := s!"SYN to {f.service} unanswered for {secs}s (handshake timeout)" }

/-- The body of the loop over `timeouts`; it clears the half-open count as
`clear_half_open` does. -/
def flagTimeout (now : ℕ) (acc : EngineState F × List (L4Event F)) (k : FlowKey) :
    EngineState F × List (L4Event F) :=
  match acc.1.flows.lookup k with
  | some f =>
    let r := clearHalfOpen { f with handshakeTimeoutFlagged := true } acc.1.globals
    ({ acc.1 with flows := acc.1.flows.insert k r.1, globals := r.2 },
      acc.2 ++ [timeoutEvent now k r.1])
  | none => acc

/-- The body of the loop over `to_remove`. -/
def evict (s : EngineState F) (k : FlowKey) : EngineState F :=
  match s.flows.lookup k with
  | some f =>
    { s with
      flows := s.flows.erase k
      globals := if f.halfOpenCounted then s.globals.decHalfOpen f.service else s.globals }
  | none => s

/-- Time-driven checks: flag unanswered SYNs and evict idle flows.  This is the whole
of `Engine::sweep`, which touches nothing but the engine's `state`. -/
def EngineState.sweep (s : EngineState F) (nowNs : ℕ) : EngineState F × List (L4Event F) :=
  let ttl := secsToNanos s.cfg.flowTtlSecs
  let hto := secsToNanos s.cfg.handshakeTimeoutSecs
  let timeouts := (s.flows.entries.filter fun e => e.2.timedOut hto nowNs).map fun e => e.1
  let toRemove := (s.flows.entries.filter fun e => e.2.idle ttl nowNs).map fun e => e.1
  let r := timeouts.foldl (flagTimeout nowNs) (s, [])
  (toRemove.foldl evict r.1, r.2)

/-! ## The engine -/

/-- Flow state, detector chain and sweep clock. -/
structure Engine (F : Type) where
  state : EngineState F
  detectors : List Detector
  lastSweepNs : ℕ
  sweepIntervalNs : ℕ

namespace Engine

/-- An engine that has seen nothing, with the default detectors. -/
def new (cfg : DetectConfig F) : Engine F :=
  { state := EngineState.new cfg
    detectors := defaultDetectors cfg
    lastSweepNs := 0
    sweepIntervalNs := NS_PER_SEC }

/-- Replace the detector chain. -/
def setDetectors (e : Engine F) (detectors : List Detector) : Engine F := { e with detectors }

/-- Time-driven checks; safe to call as often as desired. -/
def sweep (e : Engine F) (nowNs : ℕ) : Engine F × List (L4Event F) :=
  let r := e.state.sweep nowNs
  ({ e with state := r.1 }, r.2)

/-- The detector chain on one packet, in order: the detectors' new states and the
events they emit. -/
def inspectAll (ctx : DetectCtx F) (detectors : List Detector) :
    List Detector × List (L4Event F) :=
  let inspected := detectors.map fun d => d.inspect ctx
  (inspected.map fun r => r.1, inspected.filterMap fun r => r.2)

/-- Ingest one packet and return any events it (and any due sweep) produced. -/
def process (e : Engine F) (pkt : PacketMeta) : Engine F × List (L4Event F) :=
  let u := e.state.update pkt
  let r := inspectAll
    { state := u.1, key := u.2.1, delta := u.2.2, nowNs := pkt.tsNanos } e.detectors
  let e' := { e with state := u.1, detectors := r.1 }
  if e.sweepIntervalNs ≤ pkt.tsNanos - e.lastSweepNs then
    let w := { e' with lastSweepNs := pkt.tsNanos }.sweep pkt.tsNanos
    (w.1, r.2 ++ w.2)
  else (e', r.2)

end Engine
