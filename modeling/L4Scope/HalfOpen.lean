/-
# Half-open accounting

Each service endpoint carries a counter of half-open connections, incremented on a SYN
and decremented when the handshake is completed, reset, closed, timed out or evicted.
`EngineState.HalfOpenExact` says that the counter of every endpoint is the number of
tracked flows counted for it; every operation preserves it
(`update_halfOpenExact`, `sweep_halfOpenExact`), as long as the number of flows fits
the counter.
-/
import L4Scope.Handshake

/-! ## The counters -/

namespace Globals

/-- Only the service's count goes up. -/
theorem halfOpenFor_inc (g : Globals) (ep ep' : Endpoint) :
    (g.incHalfOpen ep).halfOpenFor ep'
      = if ep' = ep then g.halfOpenFor ep + 1 else g.halfOpenFor ep' := by
  rw [halfOpenFor, incHalfOpen]
  split_ifs with h
  · rw [h]
    simp only [AList.lookup_insert, Option.getD_some]
  · simp only [AList.lookup_insert_ne h]
    rfl

/-- Only the service's count goes down. -/
theorem halfOpenFor_dec (g : Globals) (ep ep' : Endpoint) :
    (g.decHalfOpen ep).halfOpenFor ep'
      = if ep' = ep then saturatingPred (g.halfOpenFor ep) else g.halfOpenFor ep' := by
  rw [decHalfOpen]
  cases hc : g.halfOpen.lookup ep with
  | none =>
      have hzero : g.halfOpenFor ep = 0 := by rw [halfOpenFor, hc]; rfl
      split_ifs with h
      · rw [h, hzero]
        rfl
      · rfl
  | some c =>
      have hval : g.halfOpenFor ep = c := by rw [halfOpenFor, hc]; rfl
      split_ifs with h
      · rw [h, hval, halfOpenFor]
        simp only [AList.lookup_insert, Option.getD_some]
      · rw [halfOpenFor]
        simp only [AList.lookup_insert_ne h]
        rfl

/-- Above zero it is the predecessor. -/
theorem toNat_saturatingPred {c : UInt32} {n : ℕ} (h : c.toNat = n + 1) :
    (saturatingPred c).toNat = n := by
  have hc : c ≠ 0 := by
    rintro rfl
    simp at h
  have hle : (1 : UInt32) ≤ c := by
    rw [UInt32.le_iff_toNat_le]
    simp only [UInt32.toNat_one]
    omega
  rw [saturatingPred, if_neg hc, UInt32.toNat_sub_of_le _ _ hle]
  simp only [UInt32.toNat_one]
  omega

end Globals

/-! ## One flow against the rest of the table -/

/-- The flow is counted for the service `ep`. -/
def FlowState.countedFor (ep : Endpoint) (f : FlowState) : Bool :=
  f.halfOpenCounted && f.service = ep

namespace FlowState

/-- A flow without the mark counts for nobody. -/
theorem countedFor_of_not_counted {f : FlowState} (h : f.halfOpenCounted = false)
    (ep : Endpoint) : f.countedFor ep = false := by
  rw [countedFor, h, Bool.false_and]

/-- A flow with the mark counts for its service. -/
theorem countedFor_service {f : FlowState} (h : f.halfOpenCounted = true) :
    f.countedFor f.service = true := by
  rw [countedFor, h, Bool.true_and, decide_eq_true rfl]

/-- It counts for no other. -/
theorem countedFor_of_ne {f : FlowState} {ep : Endpoint} (h : ep ≠ f.service) :
    f.countedFor ep = false := by
  rw [countedFor, decide_eq_false h.symm, Bool.and_false]

end FlowState

/-- The counters are exact for this flow over `rest`, the counts of the other flows. -/
def Work.Balanced (rest : Endpoint → ℕ) (w : Work) : Prop :=
  ∀ ep, (w.globals.halfOpenFor ep).toNat = rest ep + if w.flow.countedFor ep then 1 else 0

namespace Work

variable {rest : Endpoint → ℕ} {w w' : Work}

/-- Changes to other fields keep the balance. -/
theorem Balanced.congr (h : w.Balanced rest) (hg : w'.globals.halfOpen = w.globals.halfOpen)
    (hc : w'.flow.halfOpenCounted = w.flow.halfOpenCounted)
    (hs : w'.flow.service = w.flow.service) : w'.Balanced rest := by
  intro ep
  have hep := h ep
  rw [Globals.halfOpenFor] at hep ⊢
  rw [FlowState.countedFor] at hep ⊢
  rw [hg, hc, hs]
  exact hep

/-- Clearing the mark lowers the count of the service. -/
theorem clear_globals (w : Work) : w.clear.globals
    = if w.flow.halfOpenCounted then w.globals.decHalfOpen w.flow.service else w.globals := by
  rw [Work.clear, clearHalfOpen]
  split_ifs <;> rfl

/-- Releasing a count lowers the counter by exactly one: it never saturates. -/
theorem balanced_clear (h : w.Balanced rest) : w.clear.Balanced rest := by
  intro ep
  rw [clear_flow, clear_globals, FlowState.countedFor_of_not_counted rfl]
  by_cases hc : w.flow.halfOpenCounted = true
  · have hserv := h w.flow.service
    rw [FlowState.countedFor_service hc] at hserv
    rw [if_pos hc, Globals.halfOpenFor_dec]
    by_cases heq : ep = w.flow.service
    · rw [if_pos heq, heq]
      exact Globals.toNat_saturatingPred hserv
    · rw [if_neg heq, h ep, FlowState.countedFor_of_ne heq]
  · rw [if_neg hc, h ep, FlowState.countedFor_of_not_counted (by simpa using hc)]

/-- Counting an uncounted flow raises the counter by exactly one, unless that would
overflow it. -/
theorem balanced_inc (h : w.Balanced rest) (hc : w.flow.halfOpenCounted = false)
    (hroom : rest w.flow.service + 1 < 2 ^ 32) {f : FlowState} (hf : f.halfOpenCounted = true)
    (hs : f.service = w.flow.service) (d : PacketDelta) :
    Balanced rest { flow := f, globals := w.globals.incHalfOpen w.flow.service, d } := by
  intro ep
  have hserv := h w.flow.service
  rw [FlowState.countedFor_of_not_counted hc] at hserv
  show ((w.globals.incHalfOpen w.flow.service).halfOpenFor ep).toNat
    = rest ep + if f.countedFor ep then 1 else 0
  rw [Globals.halfOpenFor_inc]
  by_cases heq : ep = w.flow.service
  · rw [if_pos heq, heq, ← hs, FlowState.countedFor_service hf, hs, UInt32.toNat_add, hserv]
    simp only [UInt32.toNat_one, Bool.false_eq_true, if_false, if_true]
    omega
  · rw [if_neg heq, FlowState.countedFor_of_ne (hs ▸ heq), h ep,
      FlowState.countedFor_of_not_counted hc]

/-- A SYN sets the mark and raises the count, or does neither. -/
theorem balanced_onSynOnly (h : w.Balanced rest) (pkt : PacketMeta)
    (hroom : rest w.flow.service + 1 < 2 ^ 32) : (onSynOnly pkt w).Balanced rest := by
  simp only [onSynOnly, expectAfterSyn]
  split_ifs with hsyn hc
  · refine balanced_inc h (by simpa using hc) hroom ?_ ?_ _
    · rfl
    · rfl
  · exact h.congr rfl rfl rfl
  · exact h.congr rfl rfl rfl

/-- A SYN-ACK keeps both. -/
theorem balanced_onSynAck (h : w.Balanced rest) (pkt : PacketMeta) :
    (onSynAck pkt w).Balanced rest := by
  simp only [onSynAck, expectAfterSyn]
  cases w.flow.synTimeNs <;> exact h.congr rfl rfl rfl

/-- A reset clears both. -/
theorem balanced_onRst (h : w.Balanced rest) (pkt : PacketMeta) :
    (onRst pkt w).Balanced rest := by
  simp only [onRst]
  split_ifs <;> exact balanced_clear (h.congr rfl rfl rfl)

/-- So does the end of a handshake. -/
theorem balanced_completeHandshake (h : w.Balanced rest) (pkt : PacketMeta) :
    (completeHandshake pkt w).Balanced rest := by
  rw [completeHandshake]
  split_ifs
  · exact balanced_clear (h.congr rfl rfl rfl)
  · exact h

/-- So does a FIN. -/
theorem balanced_closeOnFin (h : w.Balanced rest) (pkt : PacketMeta) :
    (closeOnFin pkt w).Balanced rest := by
  rw [closeOnFin]
  split_ifs
  · exact balanced_clear (h.congr rfl rfl rfl)
  · exact h

/-- The last arm. -/
theorem balanced_onSegment (h : w.Balanced rest) (pkt : PacketMeta) :
    (onSegment pkt w).Balanced rest := by
  have hdata := eraseData_onSegment pkt w
  exact (balanced_closeOnFin (balanced_completeHandshake h pkt) pkt).congr
    (congrArg (fun w => w.globals.halfOpen) hdata)
    (congrArg (fun w => w.flow.halfOpenCounted) hdata) (congrArg (fun w => w.flow.service) hdata)

/-- A packet keeps mark and count together. -/
theorem balanced_ingest (h : w.Balanced rest) (pkt : PacketMeta)
    (hroom : rest w.flow.service + 1 < 2 ^ 32) : (ingest pkt w).Balanced rest := by
  have h0 : Balanced rest { w with flow := { w.flow with lastSeenNs := pkt.tsNanos } } :=
    h.congr rfl rfl rfl
  rw [ingest]
  split_ifs
  · rw [updateTcp]
    split_ifs
    · exact balanced_onSynOnly h0 pkt hroom
    · exact balanced_onSynAck h0 pkt
    · exact balanced_onRst h0 pkt
    · exact balanced_onSegment h0 pkt
  · exact h0

end Work

/-! ## The whole table -/

namespace EngineState

variable {F : Type}

/-- The number of tracked flows counted for the service `ep`. -/
def halfOpenFlows (s : EngineState F) (ep : Endpoint) : ℕ :=
  s.flows.count (FlowState.countedFor ep)

/-- Every counter is the number of flows counted for its endpoint. -/
def HalfOpenExact (s : EngineState F) : Prop :=
  ∀ ep, (s.globals.halfOpenFor ep).toNat = s.halfOpenFlows ep

/-- The counts of the flows other than `k`. -/
def halfOpenRest (s : EngineState F) (k : FlowKey) (ep : Endpoint) : ℕ :=
  Table.count (FlowState.countedFor ep) (s.flows.erase k)

/-- Nothing is counted at the start. -/
theorem new_halfOpenExact (cfg : DetectConfig F) : (new cfg).HalfOpenExact := by
  intro ep
  rfl

/-- An exact table is balanced at every tracked flow. -/
theorem balanced_of_lookup {s : EngineState F} (h : s.HalfOpenExact) {k : FlowKey}
    {f : FlowState} (hf : s.flows.lookup k = some f) (d : PacketDelta) :
    Work.Balanced (s.halfOpenRest k) { flow := f, globals := s.globals, d } := by
  intro ep
  rw [h ep, halfOpenFlows, Table.count_of_lookup _ hf]
  rfl

/-- Putting a balanced flow back makes the table exact. -/
theorem halfOpenExact_insert {s : EngineState F} {k : FlowKey} {w : Work}
    (h : w.Balanced (s.halfOpenRest k)) :
    HalfOpenExact { s with flows := s.flows.insert k w.flow, globals := w.globals } := by
  intro ep
  rw [halfOpenFlows, Table.count_insert]
  exact h ep

/-- The flow of a packet, and the rest of the table. -/
theorem balanced_flowEntry {s : EngineState F} (h : s.HalfOpenExact) (pkt : PacketMeta) :
    (flowEntry pkt (s.flows.lookup pkt.key) s.globals).Balanced (s.halfOpenRest pkt.key) := by
  cases hf : s.flows.lookup pkt.key with
  | some f => exact balanced_of_lookup h hf {}
  | none =>
      intro ep
      have hep : (s.globals.halfOpenFor ep).toNat = s.halfOpenRest pkt.key ep := by
        rw [h ep, halfOpenFlows, halfOpenRest, Table.erase_of_lookup_none hf]
      exact hep

/-- A packet keeps the accounting exact, provided the flows tracked after it fit the
counters. -/
theorem update_halfOpenExact {s : EngineState F} (h : s.HalfOpenExact) (pkt : PacketMeta)
    (hroom : (s.update pkt).1.flows.size < 2 ^ 32) : (s.update pkt).1.HalfOpenExact := by
  refine halfOpenExact_insert (Work.balanced_ingest (balanced_flowEntry h pkt) pkt ?_)
  rw [update_flows, Table.size_insert] at hroom
  have hle := Table.count_le_size (FlowState.countedFor
    (flowEntry pkt (s.flows.lookup pkt.key) s.globals).flow.service) (s.flows.erase pkt.key)
  rw [halfOpenRest]
  omega

variable [F64 F]

/-- Flagging a flow takes it out of the count. -/
theorem flagTimeout_halfOpenExact {acc : EngineState F × List (L4Event F)}
    (h : acc.1.HalfOpenExact) (now : ℕ) (k : FlowKey) :
    (flagTimeout now acc k).1.HalfOpenExact := by
  rw [flagTimeout]
  cases hf : acc.1.flows.lookup k with
  | none => exact h
  | some f =>
      have hbal := balanced_of_lookup h hf {}
      have hflag : Work.Balanced (acc.1.halfOpenRest k)
          { flow := { f with handshakeTimeoutFlagged := true }, globals := acc.1.globals, d := {} } :=
        hbal.congr rfl rfl rfl
      exact halfOpenExact_insert (Work.balanced_clear hflag)

omit [F64 F] in
/-- So does evicting it. -/
theorem evict_halfOpenExact {s : EngineState F} (h : s.HalfOpenExact) (k : FlowKey) :
    (evict s k).HalfOpenExact := by
  rw [evict]
  cases hf : s.flows.lookup k with
  | none => exact h
  | some f =>
      -- releasing the flow's count leaves the counters at the counts of the others
      have hclear := Work.balanced_clear (balanced_of_lookup h hf {})
      intro ep
      have hep := hclear ep
      rw [Work.clear_flow, FlowState.countedFor_of_not_counted rfl, Work.clear_globals] at hep
      exact hep

/-- A sweep keeps the accounting exact. -/
theorem sweep_halfOpenExact {s : EngineState F} (h : s.HalfOpenExact) (now : ℕ) :
    (s.sweep now).1.HalfOpenExact := by
  rw [sweep_eq]
  refine List.foldlRecOn (motive := HalfOpenExact) _ evict ?_
    fun s' hs' k _ => evict_halfOpenExact hs' k
  exact List.foldlRecOn
    (motive := fun acc : EngineState F × List (L4Event F) => acc.1.HalfOpenExact)
    _ (flagTimeout now) h fun acc hacc k _ => flagTimeout_halfOpenExact hacc now k

omit [F64 F] in
/-- A packet adds one flow at most. -/
theorem size_update_le (s : EngineState F) (pkt : PacketMeta) :
    (s.update pkt).1.flows.size ≤ s.flows.size + 1 := by
  rw [update_flows, Table.size_insert]
  cases hf : s.flows.lookup pkt.key with
  | none => rw [Table.erase_of_lookup_none hf]
  | some f =>
      rw [Table.size_of_lookup hf]
      omega

theorem size_flagTimeout (now : ℕ) (acc : EngineState F × List (L4Event F)) (k : FlowKey) :
    (flagTimeout now acc k).1.flows.size = acc.1.flows.size := by
  rw [flagTimeout]
  cases hf : acc.1.flows.lookup k with
  | none => rfl
  | some f => exact (Table.size_insert _ _ _).trans (Table.size_of_lookup hf).symm

omit [F64 F] in
/-- Evicting adds none. -/
theorem size_evict_le (s : EngineState F) (k : FlowKey) :
    (evict s k).flows.size ≤ s.flows.size := by
  rw [evict]
  cases hf : s.flows.lookup k with
  | none => exact Nat.le_refl _
  | some f => exact (Nat.le_succ _).trans (Table.size_of_lookup hf).ge

/-- A sweep adds no flow. -/
theorem size_sweep_le (s : EngineState F) (now : ℕ) :
    (s.sweep now).1.flows.size ≤ s.flows.size := by
  rw [sweep_eq]
  refine List.foldlRecOn (motive := fun s' : EngineState F => s'.flows.size ≤ s.flows.size) _
    evict ?_ fun s' hs' k _ => (size_evict_le s' k).trans hs'
  exact List.foldlRecOn
    (motive := fun acc : EngineState F × List (L4Event F) => acc.1.flows.size ≤ s.flows.size)
    _ (flagTimeout now) (Nat.le_refl _) fun acc hacc k _ => (size_flagTimeout now acc k).trans_le hacc

/-- Each operation adds at most one flow. -/
theorem size_after_le (s : EngineState F) (ops : List Op) :
    (machine.after s ops).flows.size ≤ s.flows.size + ops.length := by
  induction ops generalizing s with
  | nil => exact Nat.le_refl _
  | cons op ops ih =>
      have hstep : (machine.step s op).1.flows.size ≤ s.flows.size + 1 := by
        cases op with
        | update pkt => exact size_update_le s pkt
        | sweep now => exact (size_sweep_le s now).trans (Nat.le_succ _)
      have hrest := ih (machine.step s op).1
      rw [Machine.after_cons, List.length_cons]
      omega

/-- At every point of a run fewer than `2 ^ 32` flows are tracked. -/
def FewFlows (s : EngineState F) (ops : List Op) : Prop :=
  ∀ pre, pre <+: ops → (machine.after s pre).flows.size < 2 ^ 32

/-- A short run tracks few flows. -/
theorem fewFlows_of_length {s : EngineState F} {ops : List Op}
    (h : s.flows.size + ops.length < 2 ^ 32) : s.FewFlows ops := by
  intro pre hpre
  have hsize := size_after_le s pre
  have hlen := hpre.length_le
  omega

/-- The accounting stays exact along a run that tracks few flows. -/
theorem after_halfOpenExact {s : EngineState F} (h : s.HalfOpenExact) {ops : List Op}
    (hfew : s.FewFlows ops) : (machine.after s ops).HalfOpenExact := by
  refine machine.after_invariant h fun e he hexact => ?_
  obtain ⟨pre, post, hops, hstate, -⟩ := (machine.mem_log).1 he
  obtain ⟨s', op, out⟩ := e
  cases op with
  | sweep now => exact sweep_halfOpenExact hexact now
  | update pkt =>
      refine update_halfOpenExact hexact pkt ?_
      have hsize := hfew (pre ++ [.update pkt]) ⟨post, by rw [hops]; simp⟩
      rw [machine.after_concat, ← hstate] at hsize
      exact hsize

end EngineState

/-! ## Exact accounting over whole runs -/

section Runs

variable {F : Type} [F64 F]

/-- **Half-open accounting is exact.**  After any calls on a new engine that never
tracks `2 ^ 32` flows, the counter of every endpoint is the number of tracked flows
counted for it, so that the counter of a counted flow is positive and a decrement never
saturates; a counted flow is in the middle of its handshake; and a flow waiting for its
SYN-ACK is counted exactly until its timeout is reported. -/
theorem Engine.halfOpen_exact (cfg : DetectConfig F) (calls : List Call)
    (hfew : (EngineState.new cfg).FewFlows ((Engine.new cfg).ops calls)) :
    let s := (Engine.machine.after (Engine.new cfg) calls).state
    (∀ ep, (s.globals.halfOpenFor ep).toNat
        = s.flows.count fun f => f.halfOpenCounted && f.service = ep) ∧
    (∀ k f, s.flows.lookup k = some f → f.halfOpenCounted = true →
        0 < (s.globals.halfOpenFor f.service).toNat) ∧
    (∀ k f, s.flows.lookup k = some f → f.halfOpenCounted = true →
        f.state = .synSent ∨ f.state = .synAckSeen) ∧
    (∀ k f, s.flows.lookup k = some f → f.state = .synSent →
        (f.halfOpenCounted = true ↔ f.handshakeTimeoutFlagged = false)) := by
  rw [Engine.state_after]
  have hexact := EngineState.after_halfOpenExact (EngineState.new_halfOpenExact cfg) hfew
  have hok := EngineState.after_flowsOk (EngineState.new_flowsOk cfg) ((Engine.new cfg).ops calls)
  refine ⟨hexact, fun k f hf hc => ?_, fun k f hf => (hok k f hf).counted_state,
    fun k f hf => (hok k f hf).synSent_counted⟩
  exact (hexact f.service).symm ▸
    Table.count_pos_of_lookup hf (FlowState.countedFor_service hc)

/-- A single SYN: one flow, counted for the server. -/
theorem Engine.halfOpen_exact_syn :
    let syn := Sample.tcp 5 (Sample.ep 1 5002) (Sample.ep 2 3306) TcpFlags.SYN 100 0 64240 0
    let s := (Engine.machine.after (Engine.new (DetectConfig.default ℚ)) [.process syn]).state
    ∀ ep, (s.globals.halfOpenFor ep).toNat
      = s.flows.count fun f => f.halfOpenCounted && f.service = ep :=
  (Engine.halfOpen_exact (DetectConfig.default ℚ) _
    (EngineState.fewFlows_of_length
      (Nat.lt_of_le_of_lt (Nat.add_le_add_left (Engine.length_ops_le _ _) _) (by decide)))).1

end Runs
