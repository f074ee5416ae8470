/-
# The per-flow state machine

Flow state, host-wide counters, and `EngineState.update`, which the engine runs once
per packet.  `update` returns the packet-level delta that every detector reads.

The arms of `update` (bare SYN, SYN-ACK, RST, everything else) and the blocks of its
last arm are definitions of their own, applied in the source's order.
-/
import L4Scope.KeyedTable
import L4Scope.Window

/-! ## Flow state -/

/-- Coarse TCP connection state. -/
inductive TcpState where
  | new
  | synSent
  | synAckSeen
  | established
  | closing
  | reset
  deriving DecidableEq, Repr

/-- Everything we remember about a single conversation. -/
structure FlowState where
  proto : Protocol
  state : TcpState
  firstSeenNs : ℕ
  lastSeenNs : ℕ
  synTimeNs : Option ℕ
  synackTimeNs : Option ℕ
  rttNs : Option ℕ
  established : Bool
  handshakeTimeoutFlagged : Bool
  halfOpenCounted : Bool
  /-- The server endpoint (SYN destination), used for backlog attribution. -/
  service : Endpoint
  /-- Next expected sequence number per direction. -/
  nextSeq : PerDir (Option UInt32)
  /-- Last ACK value seen per direction. -/
  lastAck : PerDir (Option UInt32)
  dupAckCount : PerDir UInt32
  zeroWindow : PerDir Bool
  retransmits : ℕ
  dataSegments : ℕ
  deriving DecidableEq

/-- A flow at its first packet. -/
def FlowState.new (proto : Protocol) (now : ℕ) (service : Endpoint) : FlowState where
  proto := proto
  state := .new
  firstSeenNs := now
  lastSeenNs := now
  synTimeNs := none
  synackTimeNs := none
  rttNs := none
  established := false
  handshakeTimeoutFlagged := false
  halfOpenCounted := false
  service := service
  nextSeq := ⟨none, none⟩
  lastAck := ⟨none, none⟩
  dupAckCount := ⟨0, 0⟩
  zeroWindow := ⟨false, false⟩
  retransmits := 0
  dataSegments := 0

/-- The share of data segments that were retransmissions. -/
def FlowState.retransmitRatio {F : Type} [F64 F] (f : FlowState) : F :=
  if f.dataSegments = 0 then F64.ofDecimal 0 0
  else F64.div (F64.ofU64 f.retransmits) (F64.ofU64 f.dataSegments)

/-- What changed on this packet. -/
structure PacketDelta where
  newFlow : Bool := false
  isRetransmit : Bool := false
  isOutOfOrder : Bool := false
  isDupAck : Bool := false
  dupAckCount : UInt32 := 0
  zeroWindowEdge : Bool := false
  rttSampleNs : Option ℕ := none
  handshakeRefused : Bool := false
  establishedNow : Bool := false
  rst : Bool := false
  service : Option Endpoint := none
  deriving DecidableEq

/-! ## Host-wide signals -/

/-- Host-wide, cross-flow signals. -/
structure Globals where
  rstRate : RollingRate
  newFlowRate : RollingRate
  /-- Concurrent half-open connections per server endpoint. -/
  halfOpen : Table Endpoint UInt32

namespace Globals

/-- No resets, no flows and no half-open connections. -/
def new : Globals where
  rstRate := RollingRate.new 1
  newFlowRate := RollingRate.new 1
  halfOpen := ∅

/-- The half-open connections of a service. -/
def halfOpenFor (g : Globals) (ep : Endpoint) : UInt32 := (g.halfOpen.lookup ep).getD 0

/-- The largest number of half-open connections of a service. -/
def halfOpenMax (g : Globals) : UInt32 :=
  (g.halfOpen.entries.map fun e => e.2).foldl max 0

/-- `*half_open.entry(ep).or_insert(0) += 1`. -/
def incHalfOpen (g : Globals) (ep : Endpoint) : Globals :=
  { g with halfOpen := g.halfOpen.insert ep (g.halfOpenFor ep + 1) }

/-- `c.saturating_sub(1)`. -/
def saturatingPred (c : UInt32) : UInt32 := if c = 0 then 0 else c - 1

/-- `if let Some(c) = half_open.get_mut(&ep) { *c = c.saturating_sub(1) }`. -/
def decHalfOpen (g : Globals) (ep : Endpoint) : Globals :=
  match g.halfOpen.lookup ep with
  | some c => { g with halfOpen := g.halfOpen.insert ep (saturatingPred c) }
  | none => g

end Globals

/-- Owns the flow table, host-wide counters, and thresholds. -/
structure EngineState (F : Type) where
  cfg : DetectConfig F
  flows : Table FlowKey FlowState
  globals : Globals

/-- Flow state before the first packet. -/
def EngineState.new {F : Type} (cfg : DetectConfig F) : EngineState F :=
  { cfg, flows := ∅, globals := Globals.new }

/-- Reconstruct the observed (src, dst) endpoints from a canonical packet. -/
def endpoints (pkt : PacketMeta) : Endpoint × Endpoint :=
  match pkt.dir with
  | .forward => (pkt.key.low, pkt.key.high)
  | .reverse => (pkt.key.high, pkt.key.low)

/-- The endpoint taken for the server. -/
def guessService (pkt : PacketMeta) : Endpoint :=
  let (src, dst) := endpoints pkt
  -- definitive: destination of a bare SYN is the server
  if pkt.proto = .tcp ∧ pkt.flags.isSynOnly then dst
  else if dst.port ≤ src.port then dst
  else src

/-- Signed distance `a - expected` under u32 sequence-number wraparound. -/
def seqDiff (a expected : UInt32) : Int32 := (a - expected).toInt32

/-! ## The arms of `update` -/

/-- The flow, the host-wide counters and the delta, all mutated by `update`. -/
structure Work where
  flow : FlowState
  globals : Globals
  d : PacketDelta

/-- Takes the flow out of its service's half-open count, if it is in there. -/
def clearHalfOpen (flow : FlowState) (globals : Globals) : FlowState × Globals :=
  if flow.halfOpenCounted then
    ({ flow with halfOpenCounted := false }, globals.decHalfOpen flow.service)
  else (flow, globals)

/-- `clear_half_open(flow, &mut self.globals)`. -/
def Work.clear (w : Work) : Work :=
  let r := clearHalfOpen w.flow w.globals
  { w with flow := r.1, globals := r.2 }

/-- `flow.next_seq[di] = Some(pkt.seq.wrapping_add(1))`. -/
def expectAfterSyn (pkt : PacketMeta) (w : Work) : Work :=
  { w with flow := { w.flow with nextSeq := w.flow.nextSeq.set pkt.dir (some (pkt.seq + 1)) } }

/-- The bare-SYN arm. -/
def onSynOnly (pkt : PacketMeta) (w : Work) : Work :=
  let w :=
    if w.flow.synTimeNs.isNone then
      let w := { w with flow :=
        { w.flow with synTimeNs := some pkt.tsNanos, state := .synSent } }
      if !w.flow.halfOpenCounted then
        { w with
          globals := w.globals.incHalfOpen w.flow.service
          flow := { w.flow with halfOpenCounted := true } }
      else w
    else w
  expectAfterSyn pkt w

/-- The SYN-ACK arm. -/
def onSynAck (pkt : PacketMeta) (w : Work) : Work :=
  let w := { w with flow :=
    { w.flow with synackTimeNs := some pkt.tsNanos, state := .synAckSeen } }
  let w :=
    match w.flow.synTimeNs with
    | some syn =>
        let rtt := pkt.tsNanos - syn
        { w with
          flow := { w.flow with rttNs := some rtt }
          d := { w.d with rttSampleNs := some rtt } }
    | none => w
  expectAfterSyn pkt w

/-- The RST arm. -/
def onRst (pkt : PacketMeta) (w : Work) : Work :=
  let w := { w with
    d := { w.d with rst := true }
    globals := { w.globals with rstRate := w.globals.rstRate.record pkt.tsNanos } }
  let w :=
    if w.flow.state = .synSent ∨ w.flow.state = .synAckSeen then
      { w with d := { w.d with handshakeRefused := true } }
    else w
  { w with flow := { w.flow with state := .reset } }.clear

/-- The ACK that completes the handshake. -/
def completeHandshake (pkt : PacketMeta) (w : Work) : Work :=
  if w.flow.state = .synAckSeen ∧ pkt.flags.ack then
    { w with
      flow := { w.flow with state := .established, established := true }
      d := { w.d with establishedNow := true } }.clear
  else w

/-- A FIN. -/
def closeOnFin (pkt : PacketMeta) (w : Work) : Work :=
  if pkt.flags.fin then
    { w with flow := { w.flow with state := .closing } }.clear
  else w

/-- Zero-window edge (receiver stall) on an active connection. -/
def zeroWindowEdge (pkt : PacketMeta) (w : Work) : Work :=
  if w.flow.established ∨ w.flow.state = .closing then
    let wasZero := w.flow.zeroWindow.get pkt.dir
    let nowZero := pkt.window == 0
    { w with
      d := { w.d with zeroWindowEdge := if nowZero && !wasZero then true else w.d.zeroWindowEdge }
      flow := { w.flow with zeroWindow := w.flow.zeroWindow.set pkt.dir nowZero } }
  else w

/-- Retransmission / out-of-order for data-bearing segments. -/
def trackSegment (pkt : PacketMeta) (w : Work) : Work :=
  if 0 < pkt.payloadLen then
    let w := { w with flow := { w.flow with dataSegments := w.flow.dataSegments + 1 } }
    let segEnd := pkt.seq + pkt.payloadLen
    match w.flow.nextSeq.get pkt.dir with
    | some exp =>
        let diff := seqDiff pkt.seq exp
        let w :=
          if diff < 0 then
            { w with
              d := { w.d with isRetransmit := true }
              flow := { w.flow with retransmits := w.flow.retransmits + 1 } }
          else if 0 < diff then { w with d := { w.d with isOutOfOrder := true } }
          else w
        if 0 < seqDiff segEnd exp then
          { w with flow := { w.flow with nextSeq := w.flow.nextSeq.set pkt.dir (some segEnd) } }
        else w
    | none =>
        { w with flow := { w.flow with nextSeq := w.flow.nextSeq.set pkt.dir (some segEnd) } }
  else w

/-- Duplicate-ACK detection (bare ACK, no new data). -/
def trackDupAck (pkt : PacketMeta) (w : Work) : Work :=
  if pkt.flags.ack ∧ pkt.payloadLen = 0 ∧ !pkt.flags.syn ∧ !pkt.flags.fin then
    if w.flow.lastAck.get pkt.dir = some pkt.ack then
      let n := w.flow.dupAckCount.get pkt.dir + 1
      { w with
        flow := { w.flow with dupAckCount := w.flow.dupAckCount.set pkt.dir n }
        d := { w.d with isDupAck := true, dupAckCount := n } }
    else
      { w with flow := { w.flow with
          lastAck := w.flow.lastAck.set pkt.dir (some pkt.ack)
          dupAckCount := w.flow.dupAckCount.set pkt.dir 0 } }
  else w

/-- The last arm: established / data / pure-ACK / FIN. -/
def onSegment (pkt : PacketMeta) (w : Work) : Work :=
  trackDupAck pkt (trackSegment pkt (zeroWindowEdge pkt (closeOnFin pkt
    (completeHandshake pkt w))))

/-- The TCP part of `update`. -/
def updateTcp (pkt : PacketMeta) (w : Work) : Work :=
  if pkt.flags.isSynOnly then onSynOnly pkt w
  else if pkt.flags.isSynAck then onSynAck pkt w
  else if pkt.flags.rst then onRst pkt w
  else onSegment pkt w

/-! ## `update` -/

/-- The flow of the packet, given what the table holds under its key; a new flow is
recorded in the churn rate. -/
def flowEntry (pkt : PacketMeta) (found : Option FlowState) (globals : Globals) : Work :=
  match found with
  | some flow => { flow, globals, d := {} }
  | none =>
    { flow := FlowState.new pkt.proto pkt.tsNanos (guessService pkt)
      globals := { globals with newFlowRate := globals.newFlowRate.record pkt.tsNanos }
      d := { newFlow := true } }

/-- Everything `update` does to the flow it looked up. -/
def ingest (pkt : PacketMeta) (w : Work) : Work :=
  let w := { w with flow := { w.flow with lastSeenNs := pkt.tsNanos } }
  if pkt.proto = .tcp then updateTcp pkt w else w

/-- Ingest one packet, update state, and return `(flow key, delta)`. -/
def EngineState.update {F : Type} (s : EngineState F) (pkt : PacketMeta) :
    EngineState F × FlowKey × PacketDelta :=
  let w := ingest pkt (flowEntry pkt (s.flows.lookup pkt.key) s.globals)
  ({ s with flows := s.flows.insert pkt.key w.flow, globals := w.globals },
    pkt.key, { w.d with service := some w.flow.service })
