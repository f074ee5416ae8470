/-
# The handshake automaton

The part of a flow that follows the three-way handshake (`Handshake`), as an automaton
of its own: it reads the class of a segment (`Segment`) and a time, and produces the
handshake part of the delta.  `handshake_flowStep` and `handshake_sweepFlow` connect it
to the flow table; `Handshake.Ok` is its invariant.
-/
import L4Scope.FlowStep

/-! ## Segments -/

/-- What the state machine distinguishes about a TCP segment. -/
inductive Segment where
  | syn
  | synAck
  | rst
  | other (ack fin : Bool)
  deriving DecidableEq

/-- The class of a packet, `none` if it is not TCP. -/
def PacketMeta.segment (p : PacketMeta) : Option Segment :=
  if p.proto = .tcp then
    some (if p.flags.isSynOnly then .syn
      else if p.flags.isSynAck then .synAck
      else if p.flags.rst then .rst
      else .other p.flags.ack p.flags.fin)
  else none

/-- A connection request: a TCP packet with SYN and without ACK. -/
def PacketMeta.bareSyn (p : PacketMeta) : Bool := p.proto = .tcp && p.flags.isSynOnly

/-- A bare SYN takes the first arm. -/
theorem PacketMeta.bareSyn_eq (p : PacketMeta) : p.bareSyn = decide (p.segment = some .syn) := by
  unfold bareSyn segment
  by_cases hp : p.proto = .tcp
  · rw [if_pos hp, decide_eq_true hp, Bool.true_and]
    split_ifs <;> simp [*]
  · rw [if_neg hp, decide_eq_false hp]
    rfl

/-! ## The automaton -/

/-- The handshake part of a flow. -/
structure Handshake where
  state : TcpState
  synTimeNs : Option ℕ
  rttNs : Option ℕ
  established : Bool
  flagged : Bool
  counted : Bool
  deriving DecidableEq

/-- The handshake part of a delta. -/
structure HandshakeDelta where
  rttSampleNs : Option ℕ := none
  refused : Bool := false
  establishedNow : Bool := false
  deriving DecidableEq

/-- The handshake part of a flow. -/
def FlowState.handshake (f : FlowState) : Handshake where
  state := f.state
  synTimeNs := f.synTimeNs
  rttNs := f.rttNs
  established := f.established
  flagged := f.handshakeTimeoutFlagged
  counted := f.halfOpenCounted

/-- The handshake part of a delta. -/
def PacketDelta.handshake (d : PacketDelta) : HandshakeDelta where
  rttSampleNs := d.rttSampleNs
  refused := d.handshakeRefused
  establishedNow := d.establishedNow

namespace Handshake

/-- The handshake part of a flow just inserted. -/
def init : Handshake where
  state := .new
  synTimeNs := none
  rttNs := none
  established := false
  flagged := false
  counted := false

/-- The first bare SYN opens the handshake; later ones change nothing. -/
def onSyn (now : ℕ) (h : Handshake) : Handshake :=
  match h.synTimeNs with
  | none => { h with synTimeNs := some now, state := .synSent, counted := true }
  | some _ => h

/-- The answer to a SYN, with a sample of the round trip. -/
def onSynAck (now : ℕ) (h : Handshake) : Handshake × HandshakeDelta :=
  let rtt := h.synTimeNs.map (now - ·)
  ({ h with state := .synAckSeen, rttNs := rtt.or h.rttNs }, { rttSampleNs := rtt })

/-- A reset, which refuses a connection that is being set up. -/
def onRst (h : Handshake) : Handshake × HandshakeDelta :=
  ({ h with state := .reset, counted := false },
    { refused := h.state = .synSent ∨ h.state = .synAckSeen })

/-- An ACK completes a handshake in state `synAckSeen`. -/
def onAck (ack : Bool) (h : Handshake) : Handshake × HandshakeDelta :=
  if h.state = .synAckSeen ∧ ack then
    ({ h with state := .established, established := true, counted := false },
      { establishedNow := true })
  else (h, {})

/-- The last arm, which closes the connection on a FIN. -/
def onFin (fin : Bool) (h : Handshake) : Handshake :=
  if fin then { h with state := .closing, counted := false } else h

/-- One segment. -/
def step (now : ℕ) (h : Handshake) : Segment → Handshake × HandshakeDelta
  | .syn => (onSyn now h, {})
  | .synAck => onSynAck now h
  | .rst => onRst h
  | .other ack fin => (onFin fin (onAck ack h).1, (onAck ack h).2)

/-- One packet; packets that are not TCP are ignored. -/
def onPacket (h : Handshake) (p : PacketMeta) : Handshake × HandshakeDelta :=
  match p.segment with
  | some seg => step p.tsNanos h seg
  | none => (h, {})

/-- The SYN has waited longer than `hto` and was not reported. -/
def timedOut (hto now : ℕ) (h : Handshake) : Bool :=
  h.state = .synSent && !h.flagged &&
    match h.synTimeNs with
    | some t => hto < now - t
    | none => false

/-- A sweep, which flags a SYN that has waited too long. -/
def onSweep (hto now : ℕ) (h : Handshake) : Handshake :=
  if h.timedOut hto now then { h with flagged := true, counted := false } else h

/-! ## What stays -/

/-- The first bare SYN sets the time of the SYN, and nothing moves it afterwards. -/
theorem onPacket_synTimeNs (h : Handshake) (p : PacketMeta) : (h.onPacket p).1.synTimeNs
    = h.synTimeNs.or (if p.bareSyn then some p.tsNanos else none) := by
  rw [PacketMeta.bareSyn_eq, onPacket]
  rcases hseg : p.segment with _ | (_ | _ | _ | ⟨ack, fin⟩)
  · simp
  · cases hsyn : h.synTimeNs <;> simp [step, onSyn, hsyn]
  · simp [step, onSynAck]
  · simp [step, onRst]
  · simp only [step, onAck, onFin]
    split_ifs <;> simp_all

/-- A sweep touches no more than the flag and the count. -/
theorem onSweep_eq (hto now : ℕ) (h : Handshake) :
    ∃ flagged counted, h.onSweep hto now = { h with flagged := flagged, counted := counted } ∧
      (counted = true → h.counted = true) := by
  rw [onSweep]
  split_ifs
  · exact ⟨true, false, rfl, nofun⟩
  · exact ⟨h.flagged, h.counted, rfl, id⟩

/-- A sweep keeps the time of the SYN. -/
theorem onSweep_synTimeNs (hto now : ℕ) (h : Handshake) :
    (h.onSweep hto now).synTimeNs = h.synTimeNs := by
  obtain ⟨_, _, heq, -⟩ := h.onSweep_eq hto now
  rw [heq]

/-- It keeps the state. -/
theorem onSweep_state (hto now : ℕ) (h : Handshake) : (h.onSweep hto now).state = h.state := by
  obtain ⟨_, _, heq, -⟩ := h.onSweep_eq hto now
  rw [heq]

/-- It sets no mark. -/
theorem counted_of_onSweep {hto now : ℕ} {h : Handshake}
    (hc : (h.onSweep hto now).counted = true) : h.counted = true := by
  obtain ⟨_, _, heq, hcounted⟩ := h.onSweep_eq hto now
  rw [heq] at hc
  exact hcounted hc

end Handshake

/-! ## The flow table runs the automaton -/

/-- The handshake parts of the flow and of the delta. -/
def Work.handshake (w : Work) : Handshake × HandshakeDelta := (w.flow.handshake, w.d.handshake)

theorem Work.clear_flow (w : Work) : w.clear.flow = { w.flow with halfOpenCounted := false } :=
  clearHalfOpen_flow w.flow w.globals

theorem Work.clear_d (w : Work) : w.clear.d = w.d := rfl

section Arms

variable (pkt : PacketMeta) (w : Work)

/-- The SYN arm. -/
theorem handshake_onSynOnly : (onSynOnly pkt w).handshake
    = (w.flow.handshake.onSyn pkt.tsNanos, w.d.handshake) := by
  obtain ⟨flow, g, d⟩ := w
  simp only [onSynOnly, expectAfterSyn, Work.handshake]
  cases hsyn : flow.synTimeNs with
  | some t => simp [FlowState.handshake, Handshake.onSyn, hsyn]
  | none =>
      cases hc : flow.halfOpenCounted <;>
        simp [FlowState.handshake, Handshake.onSyn, hsyn, hc]

/-- The SYN-ACK arm. -/
theorem handshake_onSynAck (hd : w.d.handshake = {}) :
    (onSynAck pkt w).handshake = w.flow.handshake.onSynAck pkt.tsNanos := by
  obtain ⟨flow, g, d⟩ := w
  simp only [PacketDelta.handshake, HandshakeDelta.mk.injEq] at hd
  simp only [onSynAck, expectAfterSyn, Work.handshake]
  cases hsyn : flow.synTimeNs <;>
    simp [FlowState.handshake, PacketDelta.handshake, Handshake.onSynAck, hsyn, hd]

/-- The RST arm. -/
theorem handshake_onRst (hd : w.d.handshake = {}) :
    (onRst pkt w).handshake = w.flow.handshake.onRst := by
  obtain ⟨flow, g, d⟩ := w
  simp only [PacketDelta.handshake, HandshakeDelta.mk.injEq] at hd
  simp only [onRst, Work.handshake, Work.clear_flow, Work.clear_d]
  cases hs : flow.state <;>
    simp [FlowState.handshake, PacketDelta.handshake, Handshake.onRst, hs, hd]

/-- The end of a handshake. -/
theorem handshake_completeHandshake (hd : w.d.handshake = {}) :
    (completeHandshake pkt w).handshake = w.flow.handshake.onAck pkt.flags.ack := by
  obtain ⟨flow, g, d⟩ := w
  simp only [PacketDelta.handshake, HandshakeDelta.mk.injEq] at hd
  simp only [completeHandshake, Handshake.onAck]
  have hstate : flow.handshake.state = flow.state := rfl
  rw [hstate]
  split_ifs
  · simp [Work.handshake, Work.clear_flow, Work.clear_d, FlowState.handshake,
      PacketDelta.handshake, hd]
  · simp [Work.handshake, PacketDelta.handshake, hd]

/-- A FIN. -/
theorem handshake_closeOnFin : (closeOnFin pkt w).handshake
    = (w.handshake.1.onFin pkt.flags.fin, w.handshake.2) := by
  simp only [closeOnFin, Handshake.onFin]
  split_ifs
  · simp [Work.handshake, Work.clear_flow, Work.clear_d, FlowState.handshake]
  · rfl

/-- The last arm. -/
theorem handshake_onSegment (hd : w.d.handshake = {}) : (onSegment pkt w).handshake
    = Handshake.step pkt.tsNanos w.flow.handshake (.other pkt.flags.ack pkt.flags.fin) := by
  have hdata : (onSegment pkt w).handshake
      = (closeOnFin pkt (completeHandshake pkt w)).handshake :=
    congrArg (fun w => w.handshake) (eraseData_onSegment pkt w)
  rw [hdata, handshake_closeOnFin, handshake_completeHandshake pkt w hd]
  rfl

/-- Ingesting a packet runs the automaton. -/
theorem handshake_ingest (hd : w.d.handshake = {}) :
    (ingest pkt w).handshake = w.flow.handshake.onPacket pkt := by
  rw [ingest, Handshake.onPacket, PacketMeta.segment]
  by_cases hp : pkt.proto = .tcp
  · rw [if_pos hp, if_pos hp, updateTcp]
    split_ifs
    · rw [handshake_onSynOnly]
      exact Prod.ext rfl hd
    · exact handshake_onSynAck pkt _ hd
    · exact handshake_onRst pkt _ hd
    · exact handshake_onSegment pkt _ hd
  · rw [if_neg hp, if_neg hp]
    exact Prod.ext rfl hd

end Arms

/-- The handshake part of what the table holds under a key. -/
def handshakeOf (found : Option FlowState) : Handshake :=
  (found.map FlowState.handshake).getD Handshake.init

@[simp] theorem handshakeOf_some (f : FlowState) : handshakeOf (some f) = f.handshake := rfl

@[simp] theorem handshakeOf_none : handshakeOf none = Handshake.init := rfl

/-- **A packet moves the handshake part of its flow as the automaton does**, and reports
the automaton's output. -/
theorem handshake_flowStep (pkt : PacketMeta) (found : Option FlowState) :
    ((flowStep pkt found).1.handshake, (flowStep pkt found).2.handshake)
      = (handshakeOf found).onPacket pkt := by
  cases found with
  | none => exact handshake_ingest pkt (flowEntry pkt none Globals.new) rfl
  | some f => exact handshake_ingest pkt (flowEntry pkt (some f) Globals.new) rfl

/-- The handshake part of a flow moves as the automaton does. -/
theorem handshake_flowStep_fst (pkt : PacketMeta) (found : Option FlowState) :
    (flowStep pkt found).1.handshake = ((handshakeOf found).onPacket pkt).1 :=
  congrArg Prod.fst (handshake_flowStep pkt found)

/-- And so does that of the delta. -/
theorem handshake_flowStep_snd (pkt : PacketMeta) (found : Option FlowState) :
    (flowStep pkt found).2.handshake = ((handshakeOf found).onPacket pkt).2 :=
  congrArg Prod.snd (handshake_flowStep pkt found)

/-- Timing out is a matter of the handshake part. -/
theorem timedOut_handshake (hto now : ℕ) (f : FlowState) :
    f.handshake.timedOut hto now = f.timedOut hto now := rfl

/-- **A sweep moves the handshake part of every flow it keeps as the automaton does.** -/
theorem handshake_sweepFlow {F : Type} [F64 F] {cfg : DetectConfig F} {now : ℕ}
    {f f' : FlowState} (h : sweepFlow cfg now f = some f') :
    f'.handshake = f.handshake.onSweep (secsToNanos cfg.handshakeTimeoutSecs) now := by
  rw [sweepFlow] at h
  rw [Handshake.onSweep, timedOut_handshake]
  split_ifs at h ⊢
  · rw [← Option.some.inj h]
    rfl
  · rw [← Option.some.inj h]

/-- The time of the SYN of a flow after a packet. -/
theorem flowStep_synTimeNs (pkt : PacketMeta) (found : Option FlowState) :
    (flowStep pkt found).1.synTimeNs
      = (handshakeOf found).synTimeNs.or (if pkt.bareSyn then some pkt.tsNanos else none) := by
  rw [← Handshake.onPacket_synTimeNs, ← handshake_flowStep_fst]
  rfl

/-! ## The invariant of the automaton -/

/-- What holds of the handshake part of every tracked flow. -/
structure Handshake.Ok (h : Handshake) : Prop where
  /-- A counted flow is in the middle of its handshake. -/
  counted_state : h.counted = true → h.state = .synSent ∨ h.state = .synAckSeen
  /-- A flow waiting for its SYN-ACK is counted until its timeout is reported. -/
  synSent_counted : h.state = .synSent → (h.counted = true ↔ h.flagged = false)
  syn_of_synSent : h.state = .synSent → h.synTimeNs ≠ none
  syn_of_flagged : h.flagged = true → h.synTimeNs ≠ none
  syn_of_counted : h.counted = true → h.synTimeNs ≠ none

namespace Handshake

/-- The start is well-formed. -/
theorem init_ok : init.Ok where
  counted_state := nofun
  synSent_counted := nofun
  syn_of_synSent := nofun
  syn_of_flagged := nofun
  syn_of_counted := nofun

variable {h : Handshake}

/-- A SYN keeps the handshake well-formed. -/
theorem onSyn_ok (hok : h.Ok) (now : ℕ) : (h.onSyn now).Ok := by
  rw [onSyn]
  cases hsyn : h.synTimeNs with
  | some t => exact hok
  | none =>
      have hflag : h.flagged = false := by
        by_contra hf
        exact hok.syn_of_flagged (by simpa using hf) hsyn
      exact ⟨fun _ => Or.inl rfl, fun _ => by simp [hflag], nofun, nofun, nofun⟩

/-- So does a SYN-ACK. -/
theorem onSynAck_ok (hok : h.Ok) (now : ℕ) : (h.onSynAck now).1.Ok where
  counted_state _ := Or.inr rfl
  synSent_counted := nofun
  syn_of_synSent := nofun
  syn_of_flagged := hok.syn_of_flagged
  syn_of_counted := hok.syn_of_counted

/-- Releasing the count while leaving the handshake keeps the invariant. -/
theorem ok_of_leave (hok : h.Ok) {state : TcpState} (est : Bool) (hs : state ≠ .synSent) :
    Ok { h with state := state, established := est, counted := false } where
  counted_state := nofun
  synSent_counted hstate := absurd hstate hs
  syn_of_synSent hstate := absurd hstate hs
  syn_of_flagged := hok.syn_of_flagged
  syn_of_counted := nofun

/-- So does an ACK. -/
theorem onAck_ok (hok : h.Ok) (ack : Bool) : (h.onAck ack).1.Ok := by
  rw [onAck]
  split_ifs
  · exact ok_of_leave hok true (by decide)
  · exact hok

/-- So does a FIN. -/
theorem onFin_ok (hok : h.Ok) (fin : Bool) : (h.onFin fin).Ok := by
  rw [onFin]
  split_ifs
  · exact ok_of_leave hok h.established (by decide)
  · exact hok

/-- So does every segment. -/
theorem step_ok (hok : h.Ok) (now : ℕ) (seg : Segment) : (step now h seg).1.Ok := by
  cases seg with
  | syn => exact onSyn_ok hok now
  | synAck => exact onSynAck_ok hok now
  | rst => exact ok_of_leave hok h.established (by decide)
  | other ack fin => exact onFin_ok (onAck_ok hok ack) fin

/-- So does every packet. -/
theorem onPacket_ok (hok : h.Ok) (p : PacketMeta) : (h.onPacket p).1.Ok := by
  rw [onPacket]
  cases p.segment with
  | none => exact hok
  | some seg => exact step_ok hok p.tsNanos seg

/-- So does a sweep. -/
theorem onSweep_ok (hok : h.Ok) (hto now : ℕ) : (h.onSweep hto now).Ok := by
  rw [onSweep]
  split_ifs with ht
  · have hs : h.state = .synSent := by
      simp only [timedOut, Bool.and_eq_true, decide_eq_true_eq] at ht
      exact ht.1.1
    exact ⟨nofun, fun _ => by simp, hok.syn_of_synSent, fun _ => hok.syn_of_synSent hs, nofun⟩
  · exact hok

end Handshake

/-- Every tracked flow satisfies the invariant of the automaton. -/
def EngineState.FlowsOk {F : Type} (s : EngineState F) : Prop :=
  ∀ k f, s.flows.lookup k = some f → f.handshake.Ok

namespace EngineState

variable {F : Type}

/-- There is no flow at the start. -/
theorem new_flowsOk (cfg : DetectConfig F) : (new cfg).FlowsOk := by
  intro k f h
  rw [new, AList.lookup_empty] at h
  cases h

/-- The handshake of any key is well-formed. -/
theorem handshakeOf_ok {s : EngineState F} (h : s.FlowsOk) (k : FlowKey) :
    (handshakeOf (s.flows.lookup k)).Ok := by
  cases hk : s.flows.lookup k with
  | none => exact Handshake.init_ok
  | some f => exact h k f hk

/-- A packet keeps all flows well-formed. -/
theorem update_flowsOk {s : EngineState F} (h : s.FlowsOk) (pkt : PacketMeta) :
    (s.update pkt).1.FlowsOk := by
  intro k f hf
  rw [lookup_update] at hf
  split_ifs at hf
  · rw [← Option.some.inj hf, handshake_flowStep_fst]
    exact Handshake.onPacket_ok (handshakeOf_ok h k) pkt
  · exact h k f hf

/-- So does a sweep. -/
theorem sweep_flowsOk [F64 F] {s : EngineState F} (h : s.FlowsOk) (now : ℕ) :
    (s.sweep now).1.FlowsOk := by
  intro k f hf
  rw [lookup_sweep] at hf
  obtain ⟨f₀, hf₀, hsweep⟩ := Option.bind_eq_some_iff.1 hf
  rw [handshake_sweepFlow hsweep]
  exact Handshake.onSweep_ok (h k f₀ hf₀) _ now

/-- The invariant holds after any operations. -/
theorem after_flowsOk [F64 F] {s : EngineState F} (h : s.FlowsOk) (ops : List Op) :
    (machine.after s ops).FlowsOk := by
  refine machine.after_invariant h fun e _ he => ?_
  obtain ⟨s, op, out⟩ := e
  cases op with
  | update pkt => exact update_flowsOk he pkt
  | sweep now => exact sweep_flowsOk he now

end EngineState
