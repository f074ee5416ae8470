/-
# The detector set

Each detector turns the engine's per-packet delta plus flow and host state into zero
or one event.  The host-wide detectors carry a `Debounce`.
-/
import L4Scope.Flow

variable {F : Type} [F64 F]

/-- Convenience: nanoseconds -> seconds as f64. -/
def nsToSecsF64 (ns : ℕ) : F := F64.div (F64.ofU64 ns) (F64.ofU64 NS_PER_SEC)

/-- Read-only view handed to every detector for one packet. -/
structure DetectCtx (F : Type) where
  state : EngineState F
  key : FlowKey
  delta : PacketDelta
  nowNs : ℕ

namespace DetectCtx

/-- The flow of the packet. -/
def flow (ctx : DetectCtx F) : Option FlowState := ctx.state.flows.lookup ctx.key

/-- The configuration. -/
def cfg (ctx : DetectCtx F) : DetectConfig F := ctx.state.cfg

/-- The host-wide counters. -/
def globals (ctx : DetectCtx F) : Globals := ctx.state.globals

end DetectCtx

/-! ## Debounce -/

/-- Simple time-based debounce so host-wide alerts don't spam. -/
structure Debounce where
  lastNs : ℕ
  gapNs : ℕ
  deriving DecidableEq

namespace Debounce

/-- A debounce that has passed nothing. -/
def new (gapSecs : ℕ) : Debounce := { lastNs := 0, gapNs := secsToNanos gapSecs }

/-- Whether an event may pass now; if it may, the time is kept. -/
def ready (b : Debounce) (now : ℕ) : Debounce × Bool :=
  if b.gapNs ≤ now - b.lastNs ∨ b.lastNs = 0 then ({ b with lastNs := now }, true)
  else (b, false)

end Debounce

/-! ## Per-flow detectors -/

/-- Reports a retransmission on a flow whose share of them is high. -/
def inspectRetransmission (ctx : DetectCtx F) : Option (L4Event F) := do
  if !ctx.delta.isRetransmit then none
  let flow ← ctx.flow
  let ratio : F := flow.retransmitRatio
  if F64.lt ratio ctx.cfg.retransmitRatioWarn then none
  let percent := F64.fixed 1 (F64.mul ratio (F64.ofDecimal 100 0))
  some
    { tsNanos := ctx.nowNs
      kind := .retransmission
      severity := .warning
      key := ctx.key
      value := ratio
      detail := s!"TCP retransmissions on {ctx.key}: {flow.retransmits}/{flow.dataSegments} segments ({percent}% loss/retx)" }

/-- Reports a segment ahead of the expected one. -/
def inspectOutOfOrder (ctx : DetectCtx F) : Option (L4Event F) :=
  if !ctx.delta.isOutOfOrder then none
  else some
    { tsNanos := ctx.nowNs
      kind := .outOfOrder
      severity := .info
      key := ctx.key
      value := F64.ofDecimal 1 0
      detail := s!"Out-of-order / gap in segment stream on {ctx.key}" }

/-- Emit exactly once, when the burst reaches the configured threshold. -/
def inspectDupAck (ctx : DetectCtx F) : Option (L4Event F) :=
  if ctx.delta.isDupAck ∧ ctx.delta.dupAckCount = ctx.cfg.dupAckThreshold then
    let n := ctx.delta.dupAckCount.toNat
    some
      { tsNanos := ctx.nowNs
        kind := .duplicateAck
        severity := .warning
        key := ctx.key
        value := F64.ofU64 n
        detail := s!"{n} duplicate ACKs on {ctx.key} (fast-retransmit / loss signal)" }
  else none

/-- Reports a receive window that has just closed. -/
def inspectZeroWindow (ctx : DetectCtx F) : Option (L4Event F) :=
  if !ctx.delta.zeroWindowEdge then none
  else some
    { tsNanos := ctx.nowNs
      kind := .zeroWindow
      severity := .warning
      key := ctx.key
      value := F64.ofDecimal 0 0
      detail := s!"Zero receive window on {ctx.key} — receiver stalled / app not draining" }

/-- Reports a round trip that takes too long. -/
def inspectHighRtt (ctx : DetectCtx F) : Option (L4Event F) := do
  let rttNs ← ctx.delta.rttSampleNs
  let rttMs : F := F64.mul (nsToSecsF64 rttNs) (F64.ofDecimal 1000 0)
  if F64.lt rttMs ctx.cfg.rttWarnMs then none
  let severity :=
    if F64.le (F64.mul ctx.cfg.rttWarnMs (F64.ofDecimal 4 0)) rttMs then Severity.warning
    else Severity.info
  let ms := F64.fixed 0 rttMs
  some
    { tsNanos := ctx.nowNs
      kind := .highRtt
      severity := severity
      key := ctx.key
      value := rttMs
      detail := s!"High handshake RTT on {ctx.key}: {ms} ms" }

/-- Reports a refused connection. -/
def inspectHandshakeFailure (ctx : DetectCtx F) : Option (L4Event F) :=
  if !ctx.delta.handshakeRefused then none
  else some
    { tsNanos := ctx.nowNs
      kind := .handshakeFailure
      severity := .warning
      key := ctx.key
      value := F64.ofDecimal 1 0
      detail := s!"Connection refused (RST during handshake) on {ctx.key}" }

/-! ## Host-wide detectors -/

/-- `if below || !self.debounce.ready(now) { return None }`: the debounce is only
consulted when the threshold is reached. -/
def debounced (b : Debounce) (below : Bool) (now : ℕ) (ev : L4Event F) :
    Debounce × Option (L4Event F) :=
  if below then (b, none)
  else
    let r := b.ready now
    (r.1, if r.2 then some ev else none)

/-- Reports too many resets a second, debounced. -/
def inspectRstStorm (b : Debounce) (ctx : DetectCtx F) : Debounce × Option (L4Event F) :=
  if !ctx.delta.rst then (b, none)
  else
    let rate : F := ctx.globals.rstRate.perSec ctx.nowNs
    let perSec := F64.fixed 0 rate
    debounced b (F64.lt rate ctx.cfg.rstStormPerSec) ctx.nowNs
      { tsNanos := ctx.nowNs
        kind := .rstStorm
        severity := .critical
        key := ctx.key
        value := rate
        detail := s!"RST storm: {perSec} resets/s host-wide (near {ctx.key})" }

/-- Reports too many half-open connections of one service, debounced. -/
def inspectSynBacklog (b : Debounce) (ctx : DetectCtx F) : Debounce × Option (L4Event F) :=
  match ctx.flow with
  | none => (b, none)
  | some flow =>
    let count := ctx.globals.halfOpenFor flow.service
    let n := count.toNat
    debounced b (count < ctx.cfg.synBacklogThreshold) ctx.nowNs
      { tsNanos := ctx.nowNs
        kind := .synBacklog
        severity := .warning
        key := ctx.key
        value := F64.ofU64 n
        detail := s!"SYN backlog to {flow.service}: {n} half-open connections (possible SYN flood / accept-queue exhaustion)" }

/-- Reports too many new flows a second, debounced. -/
def inspectChurn (b : Debounce) (ctx : DetectCtx F) : Debounce × Option (L4Event F) :=
  if !ctx.delta.newFlow then (b, none)
  else
    let rate : F := ctx.globals.newFlowRate.perSec ctx.nowNs
    let perSec := F64.fixed 0 rate
    debounced b (F64.lt rate ctx.cfg.churnPerSec) ctx.nowNs
      { tsNanos := ctx.nowNs
        kind := .connectionChurn
        severity := .info
        key := ctx.key
        value := rate
        detail := s!"Connection churn: {perSec} new flows/s host-wide" }

/-! ## The detector chain -/

/-- The registered rules; the host-wide ones own a debounce. -/
inductive Detector where
  | retransmission
  | outOfOrder
  | dupAck
  | zeroWindow
  | highRtt
  | handshakeFailure
  | rstStorm (debounce : Debounce)
  | synBacklog (debounce : Debounce)
  | churn (debounce : Debounce)
  deriving DecidableEq

/-- One detector on one packet: its new state and the event it emits. -/
def Detector.inspect (ctx : DetectCtx F) : Detector → Detector × Option (L4Event F)
  | retransmission => (retransmission, inspectRetransmission ctx)
  | outOfOrder => (outOfOrder, inspectOutOfOrder ctx)
  | dupAck => (dupAck, inspectDupAck ctx)
  | zeroWindow => (zeroWindow, inspectZeroWindow ctx)
  | highRtt => (highRtt, inspectHighRtt ctx)
  | handshakeFailure => (handshakeFailure, inspectHandshakeFailure ctx)
  | rstStorm b => let r := inspectRstStorm b ctx; (rstStorm r.1, r.2)
  | synBacklog b => let r := inspectSynBacklog b ctx; (synBacklog r.1, r.2)
  | churn b => let r := inspectChurn b ctx; (churn r.1, r.2)

/-- The default detector chain, in evaluation order. -/
def defaultDetectors (cfg : DetectConfig F) : List Detector :=
  let gap := cfg.alertDebounceSecs
  [.retransmission, .outOfOrder, .dupAck, .zeroWindow, .highRtt, .handshakeFailure,
    .rstStorm (Debounce.new gap), .synBacklog (Debounce.new gap), .churn (Debounce.new gap)]
