/-
# The host-wide rates

`rst_rate` records the RSTs of the host and `new_flow_rate` its new flows.  Both are
recorded exactly when the delta of the packet says so (`update_rstRate`,
`update_newFlowRate`), so after a run each rate is the fold of the times read off the
log (`after_rstRate`, `after_newFlowRate`).
-/
import L4Scope.FlowStep
import L4Scope.RateLog

/-! ## The rates in one update -/

/-- The rates together with what the delta says about them. -/
def Work.rates (w : Work) : (RollingRate × RollingRate) × (Bool × Bool) :=
  ((w.globals.rstRate, w.globals.newFlowRate), (w.d.rst, w.d.newFlow))

section Arms

variable (pkt : PacketMeta) (w : Work)

/-- Lowering a count leaves the rates alone. -/
theorem Globals.rates_decHalfOpen (g : Globals) (ep : Endpoint) :
    (g.decHalfOpen ep).rstRate = g.rstRate ∧ (g.decHalfOpen ep).newFlowRate = g.newFlowRate := by
  unfold Globals.decHalfOpen
  cases g.halfOpen.lookup ep with
  | none => exact ⟨rfl, rfl⟩
  | some c => exact ⟨rfl, rfl⟩

/-- So does clearing the mark. -/
theorem Work.rates_clear : w.clear.rates = w.rates := by
  unfold Work.clear clearHalfOpen
  split_ifs
  · have hg := w.globals.rates_decHalfOpen w.flow.service
    exact Prod.ext (Prod.ext hg.1 hg.2) rfl
  · rfl

/-- So does the SYN arm. -/
theorem rates_onSynOnly : (onSynOnly pkt w).rates = w.rates := by
  unfold onSynOnly
  dsimp only
  split_ifs <;> rfl

/-- So does the SYN-ACK arm. -/
theorem rates_onSynAck : (onSynAck pkt w).rates = w.rates := by
  unfold onSynAck
  dsimp only
  cases w.flow.synTimeNs <;> rfl

/-- The RST arm records the RST and says so. -/
theorem rates_onRst : (onRst pkt w).rates
    = ((w.globals.rstRate.record pkt.tsNanos, w.globals.newFlowRate), (true, w.d.newFlow)) := by
  unfold onRst
  dsimp only
  split_ifs <;> rw [Work.rates_clear] <;> rfl

/-- So does the last arm. -/
theorem rates_onSegment : (onSegment pkt w).rates = w.rates := by
  have hcomplete : (completeHandshake pkt w).rates = w.rates := by
    unfold completeHandshake
    split_ifs
    · rw [Work.rates_clear]
      rfl
    · rfl
  have hclose : ∀ w : Work, (closeOnFin pkt w).rates = w.rates := by
    intro w
    unfold closeOnFin
    split_ifs
    · rw [Work.rates_clear]
      rfl
    · rfl
  have hdata : (onSegment pkt w).rates = (closeOnFin pkt (completeHandshake pkt w)).rates :=
    congrArg (fun w => w.rates) (eraseData_onSegment pkt w)
  rw [hdata, hclose, hcomplete]

/-- Ingesting a packet leaves the rates alone, or records an RST and says so. -/
theorem rates_ingest_cases : (ingest pkt w).rates = w.rates ∨ (ingest pkt w).rates
    = ((w.globals.rstRate.record pkt.tsNanos, w.globals.newFlowRate), (true, w.d.newFlow)) := by
  unfold ingest
  dsimp only
  split_ifs
  · unfold updateTcp
    split_ifs
    · exact Or.inl (rates_onSynOnly pkt _)
    · exact Or.inl (rates_onSynAck pkt _)
    · exact Or.inr (rates_onRst pkt _)
    · exact Or.inl (rates_onSegment pkt _)
  · exact Or.inl rfl

/-- An RST is recorded exactly when the delta says so; a new flow was already recorded. -/
theorem rates_ingest (hrst : w.d.rst = false) : (ingest pkt w).rates
    = ((if (ingest pkt w).d.rst then w.globals.rstRate.record pkt.tsNanos
        else w.globals.rstRate, w.globals.newFlowRate), ((ingest pkt w).d.rst, w.d.newFlow)) := by
  rcases rates_ingest_cases pkt w with h | h
  · have hd : (ingest pkt w).d.rst = false := (congrArg (fun r => r.2.1) h).trans hrst
    rw [h, hd, Work.rates, hrst]
    rfl
  · have hd : (ingest pkt w).d.rst = true := congrArg (fun r => r.2.1) h
    rw [h, hd]
    rfl

end Arms

namespace EngineState

variable {F : Type}

/-- An RST is recorded exactly when the delta reports one. -/
theorem update_rstRate (s : EngineState F) (pkt : PacketMeta) :
    (s.update pkt).1.globals.rstRate
      = if (s.update pkt).2.2.rst then s.globals.rstRate.record pkt.tsNanos
        else s.globals.rstRate := by
  have hentry : (flowEntry pkt (s.flows.lookup pkt.key) s.globals).globals.rstRate
      = s.globals.rstRate := by
    cases s.flows.lookup pkt.key <;> rfl
  have hrst : (flowEntry pkt (s.flows.lookup pkt.key) s.globals).d.rst = false := by
    cases s.flows.lookup pkt.key <;> rfl
  have h := congrArg (fun r => r.1.1) (rates_ingest pkt _ hrst)
  simp only [hentry] at h
  exact h

/-- A new flow is recorded exactly when the delta reports one. -/
theorem update_newFlowRate (s : EngineState F) (pkt : PacketMeta) :
    (s.update pkt).1.globals.newFlowRate
      = if (s.update pkt).2.2.newFlow then s.globals.newFlowRate.record pkt.tsNanos
        else s.globals.newFlowRate := by
  have hrst : (flowEntry pkt (s.flows.lookup pkt.key) s.globals).d.rst = false := by
    cases s.flows.lookup pkt.key <;> rfl
  have hentry : (flowEntry pkt (s.flows.lookup pkt.key) s.globals).globals.newFlowRate
      = if (flowEntry pkt (s.flows.lookup pkt.key) s.globals).d.newFlow
        then s.globals.newFlowRate.record pkt.tsNanos else s.globals.newFlowRate := by
    cases s.flows.lookup pkt.key <;> rfl
  have h := rates_ingest pkt _ hrst
  have hrate : (s.update pkt).1.globals.newFlowRate
      = (flowEntry pkt (s.flows.lookup pkt.key) s.globals).globals.newFlowRate :=
    congrArg (fun r => r.1.2) h
  have hflag : (s.update pkt).2.2.newFlow
      = (flowEntry pkt (s.flows.lookup pkt.key) s.globals).d.newFlow :=
    congrArg (fun r => r.2.2) h
  rw [hrate, hflag, hentry]

variable [F64 F]

/-- Flagging a flow leaves the rates alone. -/
theorem flagTimeout_rates (now : ℕ) (acc : EngineState F × List (L4Event F)) (k : FlowKey) :
    (flagTimeout now acc k).1.globals.rstRate = acc.1.globals.rstRate ∧
      (flagTimeout now acc k).1.globals.newFlowRate = acc.1.globals.newFlowRate := by
  unfold flagTimeout clearHalfOpen
  cases acc.1.flows.lookup k with
  | none => exact ⟨rfl, rfl⟩
  | some f =>
      dsimp only
      split_ifs
      · exact acc.1.globals.rates_decHalfOpen _
      · exact ⟨rfl, rfl⟩

omit [F64 F] in
/-- So does evicting it. -/
theorem evict_rates (s : EngineState F) (k : FlowKey) :
    (evict s k).globals.rstRate = s.globals.rstRate ∧
      (evict s k).globals.newFlowRate = s.globals.newFlowRate := by
  unfold evict
  cases s.flows.lookup k with
  | none => exact ⟨rfl, rfl⟩
  | some f =>
      dsimp only
      split_ifs
      · exact s.globals.rates_decHalfOpen _
      · exact ⟨rfl, rfl⟩

/-- A sweep records nothing. -/
theorem sweep_rates (s : EngineState F) (now : ℕ) :
    (s.sweep now).1.globals.rstRate = s.globals.rstRate ∧
      (s.sweep now).1.globals.newFlowRate = s.globals.newFlowRate := by
  rw [sweep_eq]
  refine List.foldlRecOn (motive := fun s' : EngineState F =>
      s'.globals.rstRate = s.globals.rstRate ∧ s'.globals.newFlowRate = s.globals.newFlowRate)
    _ evict ?_ fun s' hs' k _ => ?_
  · refine List.foldlRecOn (motive := fun acc : EngineState F × List (L4Event F) =>
        acc.1.globals.rstRate = s.globals.rstRate ∧
          acc.1.globals.newFlowRate = s.globals.newFlowRate)
      _ (flagTimeout now) ⟨rfl, rfl⟩ fun acc hacc k _ => ?_
    obtain ⟨hr, hn⟩ := flagTimeout_rates now acc k
    exact ⟨hr.trans hacc.1, hn.trans hacc.2⟩
  · obtain ⟨hr, hn⟩ := evict_rates s' k
    exact ⟨hr.trans hs'.1, hn.trans hs'.2⟩

/-! ## The rates over a run -/

/-- The time of a step whose delta has the flag set. -/
def recordedAt (flag : PacketDelta → Bool) (e : Machine.Entry (EngineState F) Op (Out F)) :
    Option ℕ :=
  match e.input, e.output with
  | .update pkt, .updated d => if flag d then some pkt.tsNanos else none
  | _, _ => none

/-- The rate of resets is recorded at the packets that report one. -/
theorem after_rstRate (s : EngineState F) (ops : List Op) :
    (machine.after s ops).globals.rstRate
      = ((machine.log s ops).filterMap (recordedAt PacketDelta.rst)).foldl RollingRate.record
        s.globals.rstRate := by
  refine machine.after_foldl_log (fun s => s.globals.rstRate) _ _ ?_ s ops
  intro s op
  cases op with
  | update pkt =>
      show (s.update pkt).1.globals.rstRate = _
      rw [update_rstRate]
      cases hd : (s.update pkt).2.2.rst <;> simp [recordedAt, hd]
  | sweep now => exact (sweep_rates s now).1

/-- The rate of new flows likewise. -/
theorem after_newFlowRate (s : EngineState F) (ops : List Op) :
    (machine.after s ops).globals.newFlowRate
      = ((machine.log s ops).filterMap (recordedAt PacketDelta.newFlow)).foldl
        RollingRate.record s.globals.newFlowRate := by
  refine machine.after_foldl_log (fun s => s.globals.newFlowRate) _ _ ?_ s ops
  intro s op
  cases op with
  | update pkt =>
      show (s.update pkt).1.globals.newFlowRate = _
      rw [update_newFlowRate]
      cases hd : (s.update pkt).2.2.newFlow <;> simp [recordedAt, hd]
  | sweep now => exact (sweep_rates s now).2

/-- What a run records are times of its packets. -/
theorem recorded_sublist (flag : PacketDelta → Bool) (s : EngineState F) (ops : List Op) :
    ((machine.log s ops).filterMap (recordedAt flag)).Sublist (packetTimes ops) := by
  induction ops generalizing s with
  | nil => exact List.Sublist.refl _
  | cons op ops ih =>
      have hrest := ih (machine.step s op).1
      cases op with
      | sweep now => exact hrest
      | update pkt =>
          rw [Machine.log_cons]
          cases hflag : flag (s.update pkt).2.2 with
          | true =>
              have hrec : recordedAt flag ⟨s, .update pkt, (machine.step s (.update pkt)).2⟩
                  = some pkt.tsNanos := by simp [recordedAt, hflag]
              rw [List.filterMap_cons_some hrec]
              exact hrest.cons_cons _
          | false =>
              have hrec : recordedAt flag ⟨s, .update pkt, (machine.step s (.update pkt)).2⟩
                  = none := by simp [recordedAt, hflag]
              rw [List.filterMap_cons_none hrec]
              exact hrest.cons _

end EngineState
