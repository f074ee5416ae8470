/-
# The entries of the half-open table

A service gets an entry in the half-open table when a connection to it is first counted.
Lowering the counter, also when the flow is evicted, leaves the entry in place, so the table
outgrows the flow table as services come and go.  `Engine.entries_tracked_iff` says exactly
when it does not: every sweep of the run has to find, for every service with an entry, a
flow of that service that it keeps.
-/
import L4Scope.FlowStep
import Mathlib.Data.List.Infix

variable {F : Type}

/-! ## What an operation does to the entries -/

namespace Globals

/-- Raising a count makes sure of its entry. -/
theorem mem_incHalfOpen {g : Globals} {ep ep' : Endpoint} :
    ep' ∈ (g.incHalfOpen ep).halfOpen ↔ ep' = ep ∨ ep' ∈ g.halfOpen :=
  AList.mem_insert g.halfOpen

/-- Lowering a counter keeps its entry. -/
theorem mem_decHalfOpen {g : Globals} {ep ep' : Endpoint} :
    ep' ∈ (g.decHalfOpen ep).halfOpen ↔ ep' ∈ g.halfOpen := by
  rw [decHalfOpen]
  cases hc : g.halfOpen.lookup ep with
  | none => rfl
  | some c =>
      have hmem : ep ∈ g.halfOpen := AList.lookup_isSome.1 (Option.isSome_iff_exists.2 ⟨c, hc⟩)
      show ep' ∈ g.halfOpen.insert ep (saturatingPred c) ↔ ep' ∈ g.halfOpen
      rw [AList.mem_insert]
      constructor
      · rintro (rfl | h)
        · exact hmem
        · exact h
      · exact Or.inr

/-- Lowering a count keeps its entry. -/
theorem mem_clearHalfOpen {f : FlowState} {g : Globals} {ep : Endpoint} :
    ep ∈ (clearHalfOpen f g).2.halfOpen ↔ ep ∈ g.halfOpen := by
  rw [clearHalfOpen]
  split_ifs
  · exact mem_decHalfOpen
  · rfl

end Globals

/-- `w'` has the entries of `w`, and at most one more, for the service of the flow. -/
structure Work.Extends (w w' : Work) : Prop where
  service : w'.flow.service = w.flow.service
  kept : ∀ ep ∈ w.globals.halfOpen, ep ∈ w'.globals.halfOpen
  added : ∀ ep ∈ w'.globals.halfOpen, ep ∈ w.globals.halfOpen ∨ ep = w.flow.service

namespace Work

variable {w w' w'' : Work}

theorem Extends.of_eq (hs : w'.flow.service = w.flow.service)
    (hg : w'.globals.halfOpen = w.globals.halfOpen) : w.Extends w' where
  service := hs
  kept ep h := by rwa [hg]
  added ep h := by
    rw [hg] at h
    exact Or.inl h

theorem Extends.trans (h : w.Extends w') (h' : w'.Extends w'') : w.Extends w'' where
  service := h'.service.trans h.service
  kept ep hep := h'.kept ep (h.kept ep hep)
  added ep hep := by
    rcases h'.added ep hep with hold | hnew
    · exact h.added ep hold
    · exact Or.inr (hnew.trans h.service)

/-- Clearing the mark adds no entry. -/
theorem Extends.clear (h : w.Extends w') : w.Extends w'.clear where
  service := by
    rw [← h.service, Work.clear, clearHalfOpen]
    split_ifs <;> rfl
  kept ep hep := Globals.mem_clearHalfOpen.2 (h.kept ep hep)
  added ep hep := h.added ep (Globals.mem_clearHalfOpen.1 hep)

/-- The SYN arm adds an entry for the service at most. -/
theorem onSynOnly_extends (pkt : PacketMeta) (w : Work) : w.Extends (onSynOnly pkt w) := by
  simp only [onSynOnly, expectAfterSyn]
  split_ifs
  · constructor
    · rfl
    · intro ep h
      exact Globals.mem_incHalfOpen.2 (Or.inr h)
    · intro ep h
      exact (Globals.mem_incHalfOpen.1 h).symm
  · exact Extends.of_eq rfl rfl
  · exact Extends.of_eq rfl rfl

/-- The SYN-ACK arm adds none. -/
theorem onSynAck_extends (pkt : PacketMeta) (w : Work) : w.Extends (onSynAck pkt w) := by
  simp only [onSynAck, expectAfterSyn]
  cases w.flow.synTimeNs <;> exact Extends.of_eq rfl rfl

/-- Nor does the RST arm. -/
theorem onRst_extends (pkt : PacketMeta) (w : Work) : w.Extends (onRst pkt w) := by
  simp only [onRst]
  split_ifs <;> exact Extends.clear (Extends.of_eq rfl rfl)

/-- Nor does the last arm. -/
theorem onSegment_extends (pkt : PacketMeta) (w : Work) : w.Extends (onSegment pkt w) := by
  have hcomplete : w.Extends (completeHandshake pkt w) := by
    rw [completeHandshake]
    split_ifs
    · exact Extends.clear (Extends.of_eq rfl rfl)
    · exact Extends.of_eq rfl rfl
  have hclose : ∀ w : Work, w.Extends (closeOnFin pkt w) := by
    intro w
    rw [closeOnFin]
    split_ifs
    · exact Extends.clear (Extends.of_eq rfl rfl)
    · exact Extends.of_eq rfl rfl
  have hdata := eraseData_onSegment pkt w
  exact (hcomplete.trans (hclose _)).trans (Extends.of_eq
    (congrArg (fun w => w.flow.service) hdata) (congrArg (fun w => w.globals.halfOpen) hdata))

/-- A packet adds an entry for its flow's service at most. -/
theorem ingest_extends (pkt : PacketMeta) (w : Work) : w.Extends (ingest pkt w) := by
  have hseen : w.Extends { w with flow := { w.flow with lastSeenNs := pkt.tsNanos } } :=
    Extends.of_eq rfl rfl
  rw [ingest]
  refine hseen.trans ?_
  split_ifs
  · rw [updateTcp]
    split_ifs
    · exact onSynOnly_extends pkt _
    · exact onSynAck_extends pkt _
    · exact onRst_extends pkt _
    · exact onSegment_extends pkt _
  · exact Extends.of_eq rfl rfl

end Work

/-! ## Entries and flows -/

namespace EngineState

/-- The service of a packet's flow: what the table remembers, or the guess it starts with. -/
def serviceOn (s : EngineState F) (pkt : PacketMeta) : Endpoint :=
  ((s.flows.lookup pkt.key).map FlowState.service).getD (guessService pkt)

/-- The service of the flow, or the one guessed for a new flow. -/
theorem flowEntry_service (pkt : PacketMeta) (found : Option FlowState) (g : Globals) :
    (flowEntry pkt found g).flow.service
      = (found.map FlowState.service).getD (guessService pkt) := by
  cases found <;> rfl

theorem flowEntry_halfOpen (pkt : PacketMeta) (found : Option FlowState) (g : Globals) :
    (flowEntry pkt found g).globals.halfOpen = g.halfOpen := by
  cases found <;> rfl

/-- A packet removes no entry. -/
theorem mem_halfOpen_update_of_mem {s : EngineState F} {pkt : PacketMeta} {ep : Endpoint}
    (h : ep ∈ s.globals.halfOpen) : ep ∈ (s.update pkt).1.globals.halfOpen := by
  apply (Work.ingest_extends pkt _).kept
  rwa [flowEntry_halfOpen]

/-- A packet adds at most an entry for the service of its flow. -/
theorem mem_halfOpen_update {s : EngineState F} {pkt : PacketMeta} {ep : Endpoint}
    (h : ep ∈ (s.update pkt).1.globals.halfOpen) :
    ep ∈ s.globals.halfOpen ∨ ep = s.serviceOn pkt := by
  have hadded := (Work.ingest_extends pkt _).added ep h
  rwa [flowEntry_halfOpen, flowEntry_service] at hadded

variable [F64 F]

/-- A sweep neither adds nor removes entries. -/
theorem mem_halfOpen_sweep {s : EngineState F} {now : ℕ} {ep : Endpoint} :
    ep ∈ (s.sweep now).1.globals.halfOpen ↔ ep ∈ s.globals.halfOpen := by
  rw [sweep_eq]
  refine List.foldlRecOn
    (motive := fun s' : EngineState F => ep ∈ s'.globals.halfOpen ↔ ep ∈ s.globals.halfOpen)
    _ evict ?_ ?_
  · refine List.foldlRecOn (motive := fun acc : EngineState F × List (L4Event F) =>
      ep ∈ acc.1.globals.halfOpen ↔ ep ∈ s.globals.halfOpen) _ (flagTimeout now) Iff.rfl ?_
    intro acc hacc k _
    rw [← hacc, flagTimeout]
    cases acc.1.flows.lookup k with
    | none => rfl
    | some f => exact Globals.mem_clearHalfOpen
  · intro s' hs' k _
    rw [← hs', evict]
    cases s'.flows.lookup k with
    | none => rfl
    | some f =>
        dsimp only
        split_ifs
        · exact Globals.mem_decHalfOpen
        · rfl

omit [F64 F] in
/-- Some tracked flow has the service `ep`. -/
def HasFlow (s : EngineState F) (ep : Endpoint) : Prop :=
  ∃ k f, s.flows.lookup k = some f ∧ f.service = ep

/-- Every service with an entry has a tracked flow; so there are no more entries than flows. -/
structure EntriesTracked (s : EngineState F) : Prop where
  hasFlow : ∀ ep ∈ s.globals.halfOpen, s.HasFlow ep
  size_le : s.globals.halfOpen.size ≤ s.flows.size

omit [F64 F] in
/-- Every entry has a flow. -/
theorem entriesTracked_iff {s : EngineState F} :
    s.EntriesTracked ↔ ∀ ep ∈ s.globals.halfOpen, s.HasFlow ep := by
  constructor
  · intro h
    exact h.hasFlow
  · intro h
    refine ⟨h, ?_⟩
    have hle := Table.size_le_card (t := s.globals.halfOpen)
      (s := (s.flows.entries.map fun e => e.2.service).toFinset) ?_
    · refine hle.trans ((List.toFinset_card_le _).trans_eq ?_)
      rw [List.length_map, Table.size]
    · intro ep c hc
      obtain ⟨k, f, hf, hservice⟩ := h ep (AList.lookup_isSome.1 (by rw [hc]; rfl))
      rw [List.mem_toFinset, List.mem_map]
      exact ⟨⟨k, f⟩, (List.mem_dlookup_iff s.flows.nodupKeys).1 hf, hservice⟩

omit [F64 F] in
/-- The flows after a packet: its own, as the packet leaves it, and the others. -/
theorem exists_flow_update (s : EngineState F) (pkt : PacketMeta) (P : FlowState → Prop) :
    (∃ k f, (s.update pkt).1.flows.lookup k = some f ∧ P f) ↔
      P (flowStep pkt (s.flows.lookup pkt.key)).1 ∨
        ∃ k f, k ≠ pkt.key ∧ s.flows.lookup k = some f ∧ P f := by
  constructor
  · rintro ⟨k, f, hf, hP⟩
    rw [lookup_update] at hf
    split_ifs at hf with hk
    · left
      rwa [← hk, Option.some.inj hf]
    · right
      exact ⟨k, f, hk, hf, hP⟩
  · rintro (hP | ⟨k, f, hk, hf, hP⟩)
    · refine ⟨pkt.key, (flowStep pkt (s.flows.lookup pkt.key)).1, ?_, hP⟩
      rw [lookup_update, if_pos rfl]
    · refine ⟨k, f, ?_, hP⟩
      rw [lookup_update, if_neg hk]
      exact hf

omit [F64 F] in
/-- The flows of a service behind a packet. -/
theorem hasFlow_update {s : EngineState F} {pkt : PacketMeta} {ep : Endpoint} :
    (s.update pkt).1.HasFlow ep ↔ s.serviceOn pkt = ep ∨
      ∃ k f, k ≠ pkt.key ∧ s.flows.lookup k = some f ∧ f.service = ep := by
  rw [HasFlow, exists_flow_update, flowStep_service, serviceOn]

/-- A sweep keeps the flows of a service that are not idle. -/
theorem hasFlow_sweep {s : EngineState F} {now : ℕ} {ep : Endpoint} :
    (s.sweep now).1.HasFlow ep ↔ ∃ k f, s.flows.lookup k = some f ∧ f.service = ep ∧
      f.idle (secsToNanos s.cfg.flowTtlSecs) now = false := by
  constructor
  · rintro ⟨k, f', hf', hservice⟩
    obtain ⟨f, hf, hswept⟩ := lookup_swept hf'
    obtain ⟨hidle, hframe⟩ := sweepFlow_eq_some hswept
    exact ⟨k, f, hf, (FlowState.service_of_frame hframe).symm.trans hservice, hidle⟩
  · rintro ⟨k, f, hf, hservice, hidle⟩
    obtain ⟨f', hf'⟩ := sweepFlow_of_not_idle hidle
    refine ⟨k, f', ?_, ?_⟩
    · rw [lookup_sweep, hf, Option.bind_some, hf']
    · rw [FlowState.service_of_frame (sweepFlow_eq_some hf').2, hservice]

/-- A sweep right after a packet keeps the packet's flow. -/
theorem hasFlow_update_sweep {s : EngineState F} {pkt : PacketMeta} {ep : Endpoint} :
    ((s.update pkt).1.sweep pkt.tsNanos).1.HasFlow ep ↔ s.serviceOn pkt = ep ∨
      ∃ k f, k ≠ pkt.key ∧ s.flows.lookup k = some f ∧ f.service = ep ∧
        f.idle (secsToNanos s.cfg.flowTtlSecs) pkt.tsNanos = false := by
  have hlive : (flowStep pkt (s.flows.lookup pkt.key)).1.idle
      (secsToNanos s.cfg.flowTtlSecs) pkt.tsNanos = false := by
    rw [FlowState.idle, flowStep_lastSeenNs, Nat.sub_self]
    rfl
  rw [hasFlow_sweep, exists_flow_update, flowStep_service, update_cfg, hlive, serviceOn]
  simp only [and_true]

end EngineState

/-! ## Runs -/

namespace Engine

variable [F64 F]

/-- The sweep of a call, if it makes one, finds a flow to keep for every service with an entry.
The flow of a packet being processed is kept in any case. -/
def KeepsServices (e : Engine F) : Call → Prop
  | .sweep now => ∀ ep ∈ e.state.globals.halfOpen, ∃ k f, e.state.flows.lookup k = some f ∧
      f.service = ep ∧ f.idle (secsToNanos e.state.cfg.flowTtlSecs) now = false
  | .process pkt => e.sweepIntervalNs ≤ pkt.tsNanos - e.lastSweepNs →
      ∀ ep ∈ e.state.globals.halfOpen, e.state.serviceOn pkt = ep ∨
        ∃ k f, k ≠ pkt.key ∧ e.state.flows.lookup k = some f ∧ f.service = ep ∧
          f.idle (secsToNanos e.state.cfg.flowTtlSecs) pkt.tsNanos = false

/-- One call keeps the entries tracked exactly if its sweep keeps their services. -/
theorem entriesTracked_step {e : Engine F} (h : e.state.EntriesTracked) (c : Call) :
    (machine.step e c).1.state.EntriesTracked ↔ e.KeepsServices c := by
  rw [EngineState.entriesTracked_iff]
  cases c with
  | sweep now =>
      rw [step_sweep, sweep_state, KeepsServices]
      constructor
      · intro hall ep hep
        exact EngineState.hasFlow_sweep.1 (hall ep (EngineState.mem_halfOpen_sweep.2 hep))
      · intro hkeeps ep hep
        exact EngineState.hasFlow_sweep.2 (hkeeps ep (EngineState.mem_halfOpen_sweep.1 hep))
  | process pkt =>
      rw [step_process, process_state, KeepsServices]
      split_ifs with hdue
      · constructor
        · intro hall _ ep hep
          exact EngineState.hasFlow_update_sweep.1 (hall ep
            (EngineState.mem_halfOpen_sweep.2 (EngineState.mem_halfOpen_update_of_mem hep)))
        · intro hkeeps ep hep
          rcases EngineState.mem_halfOpen_update (EngineState.mem_halfOpen_sweep.1 hep) with
            hold | hnew
          · exact EngineState.hasFlow_update_sweep.2 (hkeeps hdue ep hold)
          · exact EngineState.hasFlow_update_sweep.2 (Or.inl hnew.symm)
      · constructor
        · intro _ hdue'
          exact absurd hdue' hdue
        · intro _ ep hep
          -- without a sweep every flow stays
          rcases EngineState.mem_halfOpen_update hep with hold | hnew
          · obtain ⟨k, f, hf, hservice⟩ := h.hasFlow ep hold
            by_cases hk : k = pkt.key
            · apply EngineState.hasFlow_update.2
              left
              rw [EngineState.serviceOn, ← hk, hf]
              exact hservice
            · exact EngineState.hasFlow_update.2 (Or.inr ⟨k, f, hk, hf, hservice⟩)
          · exact EngineState.hasFlow_update.2 (Or.inl hnew.symm)

/-- **The half-open table is bounded by the flow table in every state of a run exactly if every
sweep of the run keeps a flow for each service with an entry.** -/
theorem entries_tracked_iff (cfg : DetectConfig F) (calls : List Call) :
    (∀ before, before <+: calls → (machine.after (new cfg) before).state.EntriesTracked) ↔
      ∀ entry ∈ machine.log (new cfg) calls, entry.state.KeepsServices entry.input := by
  refine machine.iff_forall_log (P := fun calls => ∀ before, before <+: calls →
    (machine.after (new cfg) before).state.EntriesTracked) ?_ ?_ calls
  · intro before hbefore
    rw [List.prefix_nil.1 hbefore, Machine.after_nil]
    exact EngineState.entriesTracked_iff.2 (by simp [new, EngineState.new, Globals.new])
  · intro calls c
    simp only [List.prefix_concat_iff]
    constructor
    · intro hall
      have hbefore := fun before hbefore => hall before (Or.inr hbefore)
      have hlast := hall _ (Or.inl rfl)
      rw [Machine.after_concat] at hlast
      exact ⟨hbefore, (entriesTracked_step (hbefore calls List.prefix_rfl) c).1 hlast⟩
    · rintro ⟨hall, hkeeps⟩ before (rfl | hbefore)
      · rw [Machine.after_concat]
        exact (entriesTracked_step (hall calls List.prefix_rfl) c).2 hkeeps
      · exact hall before hbefore

/-- Two connection requests to different services, and two minutes later a packet of another
flow, whose sweep evicts both. -/
def scanRun : List Call :=
  [.process (Sample.tcp 0 (Sample.ep 1 5000) (Sample.ep 2 80) 0x02 100 0 64240 0),
    .process (Sample.tcp 1 (Sample.ep 1 5000) (Sample.ep 2 81) 0x02 100 0 64240 0),
    .process (Sample.tcp 122000000000 (Sample.ep 3 5000) (Sample.ep 4 80) 0x10 100 0 64240 0)]

/-- The entries of the two services outlive their flows. -/
theorem entries_outlive_flows :
    ¬ (machine.after (new (DetectConfig.default ℚ)) scanRun).state.EntriesTracked := by
  intro h
  exact absurd h.size_le (by decide)

end Engine
