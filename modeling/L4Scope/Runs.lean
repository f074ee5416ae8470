/-
# Runs of the engine

Two machines over the same program.  `EngineState.machine` takes the elementary
operations on the flow state, `update` and `sweep`; `Engine.machine` takes the calls a
client makes, `process` and `sweep`.  A call is a short list of operations
(`Call.ops`), and `Engine.state_after` says that the flow state after a list of calls
is the flow state after the operations they perform.
-/
import L4Scope.Engine
import L4Scope.Machine

variable {F : Type} [F64 F]

/-! ## Elementary operations -/

/-- An operation on the flow state. -/
inductive Op where
  | update (pkt : PacketMeta)
  | sweep (now : ℕ)
  deriving DecidableEq

/-- What an operation returns. -/
inductive Out (F : Type) where
  | updated (d : PacketDelta)
  | swept (events : List (L4Event F))
  deriving DecidableEq

/-- The flow state as a machine over elementary operations. -/
def EngineState.machine : Machine (EngineState F) Op (Out F) where
  step s
    | .update pkt => let r := s.update pkt; (r.1, .updated r.2.2)
    | .sweep now => let r := s.sweep now; (r.1, .swept r.2)

/-- The packet on key `k` that an operation reads, if any. -/
def Op.packetOn (k : FlowKey) : Op → Option PacketMeta
  | .update pkt => if pkt.key = k then some pkt else none
  | .sweep _ => none

/-- The packets on key `k`, in order. -/
def packetsOn (k : FlowKey) (ops : List Op) : List PacketMeta := ops.filterMap (Op.packetOn k)

/-- The timestamp of an operation. -/
def Op.time : Op → ℕ
  | .update pkt => pkt.tsNanos
  | .sweep now => now

/-- The times of the packets, in order. -/
def packetTimes (ops : List Op) : List ℕ :=
  ops.filterMap fun
    | .update pkt => some pkt.tsNanos
    | .sweep _ => none

namespace EngineState

@[simp] theorem step_update (s : EngineState F) (pkt : PacketMeta) :
    machine.step s (.update pkt) = ((s.update pkt).1, .updated (s.update pkt).2.2) := rfl

@[simp] theorem step_sweep (s : EngineState F) (now : ℕ) :
    machine.step s (.sweep now) = ((s.sweep now).1, .swept (s.sweep now).2) := rfl

end EngineState

/-! ## Calls -/

/-- A call on the engine. -/
inductive Call where
  | process (pkt : PacketMeta)
  | sweep (now : ℕ)
  deriving DecidableEq

/-- The times of the packets processed, in order. -/
def callTimes (cs : List Call) : List ℕ :=
  cs.filterMap fun
    | .process pkt => some pkt.tsNanos
    | .sweep _ => none

/-- The engine as a machine over calls. -/
def Engine.machine : Machine (Engine F) Call (List (L4Event F)) where
  step e
    | .process pkt => e.process pkt
    | .sweep now => e.sweep now

/-- The operations a call performs on the flow state. -/
def Call.ops (e : Engine F) : Call → List Op
  | .process pkt =>
    if e.sweepIntervalNs ≤ pkt.tsNanos - e.lastSweepNs then
      [.update pkt, .sweep pkt.tsNanos]
    else [.update pkt]
  | .sweep now => [.sweep now]

namespace Engine

/-- The operations a list of calls performs. -/
def ops (e : Engine F) : List Call → List Op
  | [] => []
  | c :: cs => c.ops e ++ ops (machine.step e c).1 cs

@[simp] theorem step_process (e : Engine F) (pkt : PacketMeta) :
    machine.step e (.process pkt) = e.process pkt := rfl

@[simp] theorem step_sweep (e : Engine F) (now : ℕ) :
    machine.step e (.sweep now) = e.sweep now := rfl

/-- A sweep of the engine is one of its flow state. -/
theorem sweep_state (e : Engine F) (now : ℕ) :
    (e.sweep now).1.state = (e.state.sweep now).1 := by
  rw [sweep]

/-- A packet is an update of the flow state, and a sweep if one is due. -/
theorem process_state (e : Engine F) (pkt : PacketMeta) :
    (e.process pkt).1.state
      = if e.sweepIntervalNs ≤ pkt.tsNanos - e.lastSweepNs then
          ((e.state.update pkt).1.sweep pkt.tsNanos).1
        else (e.state.update pkt).1 := by
  rw [process]
  split
  · rw [sweep_state]
  · rfl

/-- A call moves the flow state as its operations do. -/
theorem state_step (e : Engine F) (c : Call) :
    (machine.step e c).1.state = EngineState.machine.after e.state (c.ops e) := by
  cases c with
  | sweep now =>
      rw [step_sweep, sweep_state, Call.ops, Machine.after_cons, Machine.after_nil,
        EngineState.step_sweep]
  | process pkt =>
      rw [step_process, process_state, Call.ops]
      split
      · rw [Machine.after_cons, Machine.after_cons, Machine.after_nil,
          EngineState.step_update, EngineState.step_sweep]
      · rw [Machine.after_cons, Machine.after_nil, EngineState.step_update]

/-- The flow state after a list of calls is the one its operations lead to. -/
theorem state_after (e : Engine F) (cs : List Call) :
    (machine.after e cs).state = EngineState.machine.after e.state (e.ops cs) := by
  induction cs generalizing e with
  | nil => rfl
  | cons c cs ih => rw [Machine.after_cons, ih, ops, Machine.after_append, state_step]

/-- The packets of the operations come at the times of the packets of the calls. -/
theorem packetTimes_ops (e : Engine F) (cs : List Call) :
    packetTimes (e.ops cs) = callTimes cs := by
  induction cs generalizing e with
  | nil => rfl
  | cons c cs ih =>
      have happ : packetTimes (c.ops e ++ (machine.step e c).1.ops cs)
          = packetTimes (c.ops e) ++ packetTimes ((machine.step e c).1.ops cs) :=
        List.filterMap_append
      rw [ops, happ, ih]
      cases c with
      | sweep now => rfl
      | process pkt =>
          rw [Call.ops]
          split <;> rfl

/-- A call performs at most two operations. -/
theorem length_ops_le (e : Engine F) (cs : List Call) : (e.ops cs).length ≤ 2 * cs.length := by
  induction cs generalizing e with
  | nil => exact Nat.le_refl _
  | cons c cs ih =>
      have hc : (c.ops e).length ≤ 2 := by
        cases c with
        | sweep now => simp [Call.ops]
        | process pkt =>
            rw [Call.ops]
            split <;> simp
      have hcs := ih (machine.step e c).1
      rw [ops, List.length_append, List.length_cons]
      omega

end Engine

/-! ## The packets of the engine's tests -/

namespace Sample

/-- An endpoint in 10.0.0.0/24. -/
def ep (a : UInt8) (p : UInt16) : Endpoint where
  ip := .v4 ⟨[10, 0, 0, a], rfl⟩
  port := p

/-- A TCP packet. -/
def tcp (ts : ℕ) (s d : Endpoint) (flags : UInt8) (seq ack win plen : UInt32) : PacketMeta where
  tsNanos := ts
  key := (FlowKey.canonical s d .tcp).1
  dir := (FlowKey.canonical s d .tcp).2
  proto := .tcp
  flags := ⟨flags⟩
  seq := seq
  ack := ack
  window := win
  payloadLen := plen
  ttl := 64
  iface := 0

end Sample
