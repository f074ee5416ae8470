/-
# Tables in any arrangement

The flow table and the half-open counters are hash maps: in which order a sweep visits their
entries is not a function of the packets.  The model keeps the entries in one order, and
`Engine.HashRun` is a run in which they may be rearranged at every call.

What a packet does depends on lookups only (`EngineState.SameTables.update`), and so do the
detectors (`Detector.inspect_sameTables`); a sweep treats every flow on its own.  So two runs over
the same packets report the same events up to the order of the timeouts of one sweep, and end with
the same tables (`Engine.SameTables.hashRun`), whatever the arrangements.
-/
import L4Scope.RenamedRuns
import L4Scope.RepeatedSweeps

variable {F : Type}

/-! ## The host-wide counters -/

/-- The same counters, the half-open table arranged in any way. -/
structure Globals.SameTables (g g' : Globals) : Prop where
  rstRate : g'.rstRate = g.rstRate
  newFlowRate : g'.newFlowRate = g.newFlowRate
  halfOpen : ∀ ep, g'.halfOpen.lookup ep = g.halfOpen.lookup ep

namespace Globals.SameTables

variable {g g' : Globals}

/-- A counter has the same value in both tables. -/
theorem halfOpenFor (h : g.SameTables g') (ep : Endpoint) :
    g'.halfOpenFor ep = g.halfOpenFor ep := by
  rw [Globals.halfOpenFor, Globals.halfOpenFor, h.halfOpen]

/-- A counter goes up on both sides. -/
theorem incHalfOpen (h : g.SameTables g') (ep : Endpoint) :
    (g.incHalfOpen ep).SameTables (g'.incHalfOpen ep) where
  rstRate := h.rstRate
  newFlowRate := h.newFlowRate
  halfOpen ep' := by
    rw [Globals.incHalfOpen, Globals.incHalfOpen, h.halfOpenFor]
    rcases eq_or_ne ep' ep with rfl | hne
    · rw [AList.lookup_insert, AList.lookup_insert]
    · rw [AList.lookup_insert_ne hne, AList.lookup_insert_ne hne, h.halfOpen]

/-- A counter goes down on both sides. -/
theorem decHalfOpen (h : g.SameTables g') (ep : Endpoint) :
    (g.decHalfOpen ep).SameTables (g'.decHalfOpen ep) where
  rstRate := by
    rw [(g.rates_decHalfOpen ep).1, (g'.rates_decHalfOpen ep).1, h.rstRate]
  newFlowRate := by
    rw [(g.rates_decHalfOpen ep).2, (g'.rates_decHalfOpen ep).2, h.newFlowRate]
  halfOpen ep' := by
    rw [Globals.lookup_decHalfOpen, Globals.lookup_decHalfOpen, h.halfOpen, h.halfOpen]

end Globals.SameTables

/-! ## `update` -/

/-- The same flow and delta, and the same counters up to their arrangement. -/
structure Work.SameTables (w w' : Work) : Prop where
  same : w.SameFlow w'
  globals : w.globals.SameTables w'.globals

section Arms

variable {pkt : PacketMeta} {w w' : Work}

/-- A counted flow is released on both sides. -/
theorem Work.SameTables.clear (h : w.SameTables w') : w.clear.SameTables w'.clear where
  same := Work.clear_sameFlow h.same
  globals := by
    obtain ⟨flow, g, d⟩ := w
    obtain ⟨flow', g', d'⟩ := w'
    obtain ⟨⟨rfl, rfl⟩, hg⟩ := h
    simp only [Work.clear, clearHalfOpen]
    split_ifs
    · exact hg.decHalfOpen _
    · exact hg

/-- A connection request is counted on both sides. -/
theorem onSynOnly_sameTables (h : w.SameTables w') :
    (onSynOnly pkt w).SameTables (onSynOnly pkt w') where
  same := onSynOnly_sameFlow h.same
  globals := by
    obtain ⟨flow, g, d⟩ := w
    obtain ⟨flow', g', d'⟩ := w'
    obtain ⟨⟨rfl, rfl⟩, hg⟩ := h
    simp only [onSynOnly, expectAfterSyn]
    split_ifs
    · exact hg.incHalfOpen _
    · exact hg
    · exact hg

/-- The SYN-ACK arm leaves the counters. -/
theorem onSynAck_sameTables (h : w.SameTables w') :
    (onSynAck pkt w).SameTables (onSynAck pkt w') where
  same := onSynAck_sameFlow h.same
  globals := by
    have hglobals (w : Work) : (onSynAck pkt w).globals = w.globals := by
      simp only [onSynAck, expectAfterSyn]
      cases w.flow.synTimeNs <;> rfl
    rw [hglobals, hglobals]
    exact h.globals

/-- A reset is recorded, and the flow released, on both sides. -/
theorem onRst_sameTables (h : w.SameTables w') : (onRst pkt w).SameTables (onRst pkt w') := by
  obtain ⟨flow, g, d⟩ := w
  obtain ⟨flow', g', d'⟩ := w'
  obtain ⟨⟨rfl, rfl⟩, hg⟩ := h
  have hrate : Globals.SameTables { g with rstRate := g.rstRate.record pkt.tsNanos }
      { g' with rstRate := g'.rstRate.record pkt.tsNanos } := by
    refine ⟨?_, hg.newFlowRate, hg.halfOpen⟩
    rw [hg.rstRate]
  simp only [onRst]
  split_ifs <;> exact Work.SameTables.clear ⟨⟨rfl, rfl⟩, hrate⟩

/-- The completed handshake releases the flow on both sides. -/
theorem completeHandshake_sameTables (h : w.SameTables w') :
    (completeHandshake pkt w).SameTables (completeHandshake pkt w') := by
  obtain ⟨flow, g, d⟩ := w
  obtain ⟨flow', g', d'⟩ := w'
  obtain ⟨⟨rfl, rfl⟩, hg⟩ := h
  simp only [completeHandshake]
  split_ifs
  · exact Work.SameTables.clear ⟨⟨rfl, rfl⟩, hg⟩
  · exact ⟨⟨rfl, rfl⟩, hg⟩

/-- A FIN releases the flow on both sides. -/
theorem closeOnFin_sameTables (h : w.SameTables w') :
    (closeOnFin pkt w).SameTables (closeOnFin pkt w') := by
  obtain ⟨flow, g, d⟩ := w
  obtain ⟨flow', g', d'⟩ := w'
  obtain ⟨⟨rfl, rfl⟩, hg⟩ := h
  simp only [closeOnFin]
  split_ifs
  · exact Work.SameTables.clear ⟨⟨rfl, rfl⟩, hg⟩
  · exact ⟨⟨rfl, rfl⟩, hg⟩

/-- A packet does the same on both sides. -/
theorem ingest_sameTables (h : w.SameTables w') : (ingest pkt w).SameTables (ingest pkt w') where
  same := ingest_sameFlow h.same
  globals := by
    have hlast : Work.SameTables { w with flow := { w.flow with lastSeenNs := pkt.tsNanos } }
        { w' with flow := { w'.flow with lastSeenNs := pkt.tsNanos } } :=
      ⟨⟨by rw [h.same.1], h.same.2⟩, h.globals⟩
    -- behind the connection state the last arm leaves the counters
    have hsegment (w : Work) :
        (onSegment pkt w).globals = (closeOnFin pkt (completeHandshake pkt w)).globals := by
      have h := congrArg Work.globals (eraseData_onSegment pkt w)
      exact h
    rw [ingest, ingest]
    split_ifs
    · rw [updateTcp, updateTcp]
      split_ifs
      · exact (onSynOnly_sameTables hlast).globals
      · exact (onSynAck_sameTables hlast).globals
      · exact (onRst_sameTables hlast).globals
      · rw [hsegment, hsegment]
        exact (closeOnFin_sameTables (completeHandshake_sameTables hlast)).globals
    · exact hlast.globals

/-- A new flow is recorded on both sides. -/
theorem flowEntry_sameTables (pkt : PacketMeta) (found : Option FlowState) {g g' : Globals}
    (h : g.SameTables g') : (flowEntry pkt found g).SameTables (flowEntry pkt found g') := by
  cases found with
  | some f => exact ⟨⟨rfl, rfl⟩, h⟩
  | none =>
      refine ⟨⟨rfl, rfl⟩, h.rstRate, ?_, h.halfOpen⟩
      show g'.newFlowRate.record pkt.tsNanos = g.newFlowRate.record pkt.tsNanos
      rw [h.newFlowRate]

end Arms

namespace EngineState

variable {s t u : EngineState F}

/-- The third state is an arrangement of the first. -/
theorem SameTables.trans (h : s.SameTables t) (h' : t.SameTables u) : s.SameTables u where
  cfg := h'.cfg.trans h.cfg
  flows k := (h'.flows k).trans (h.flows k)
  rstRate := h'.rstRate.trans h.rstRate
  newFlowRate := h'.newFlowRate.trans h.newFlowRate
  halfOpen ep := (h'.halfOpen ep).trans (h.halfOpen ep)

/-- The counters of the two states. -/
theorem SameTables.globals (h : s.SameTables t) : s.globals.SameTables t.globals :=
  ⟨h.rstRate, h.newFlowRate, h.halfOpen⟩

/-- **A packet depends on lookups only**: it has the same effect and the same delta. -/
theorem SameTables.update (h : s.SameTables t) (pkt : PacketMeta) :
    (s.update pkt).1.SameTables (t.update pkt).1 ∧ (t.update pkt).2 = (s.update pkt).2 := by
  obtain ⟨⟨hflow, hd⟩, hglobals⟩ :
      Work.SameTables (ingest pkt _) (ingest pkt _) :=
    ingest_sameTables (flowEntry_sameTables pkt (s.flows.lookup pkt.key) h.globals)
  rw [EngineState.update, EngineState.update, h.flows]
  constructor
  · constructor
    · exact h.cfg
    · intro k
      dsimp only
      rw [← hflow]
      rcases eq_or_ne k pkt.key with rfl | hne
      · rw [AList.lookup_insert, AList.lookup_insert]
      · rw [AList.lookup_insert_ne hne, AList.lookup_insert_ne hne, h.flows]
    · exact hglobals.rstRate
    · exact hglobals.newFlowRate
    · exact hglobals.halfOpen
  · dsimp only
    rw [← hflow, ← hd]

end EngineState

/-! ## The detectors -/

/-- The view of one packet on the same state, the tables arranged in any way. -/
structure DetectCtx.SameTables (ctx ctx' : DetectCtx F) : Prop where
  state : ctx.state.SameTables ctx'.state
  key : ctx'.key = ctx.key
  delta : ctx'.delta = ctx.delta
  nowNs : ctx'.nowNs = ctx.nowNs

variable [F64 F]

/-- **The detectors depend on lookups only.** -/
theorem Detector.inspect_sameTables {ctx ctx' : DetectCtx F} (h : ctx.SameTables ctx')
    (d : Detector) : d.inspect ctx' = d.inspect ctx := by
  have hflow : ctx'.flow = ctx.flow := by
    rw [DetectCtx.flow, h.key]
    exact h.state.flows ctx.key
  have hcfg : ctx'.cfg = ctx.cfg := h.state.cfg
  have hrst : ctx'.globals.rstRate = ctx.globals.rstRate := h.state.rstRate
  have hnew : ctx'.globals.newFlowRate = ctx.globals.newFlowRate := h.state.newFlowRate
  have hhalf (ep : Endpoint) : ctx'.globals.halfOpenFor ep = ctx.globals.halfOpenFor ep :=
    h.state.globals.halfOpenFor ep
  cases d with
  | retransmission =>
      simp only [inspect, inspectRetransmission, hflow, hcfg, h.key, h.delta, h.nowNs]
  | outOfOrder => simp only [inspect, inspectOutOfOrder, h.key, h.delta, h.nowNs]
  | dupAck => simp only [inspect, inspectDupAck, hcfg, h.key, h.delta, h.nowNs]
  | zeroWindow => simp only [inspect, inspectZeroWindow, h.key, h.delta, h.nowNs]
  | highRtt => simp only [inspect, inspectHighRtt, hcfg, h.key, h.delta, h.nowNs]
  | handshakeFailure => simp only [inspect, inspectHandshakeFailure, h.key, h.delta, h.nowNs]
  | rstStorm b => simp only [inspect, inspectRstStorm, hcfg, hrst, h.key, h.delta, h.nowNs]
  | synBacklog b => simp only [inspect, inspectSynBacklog, hflow, hcfg, hhalf, h.key, h.nowNs]
  | churn b => simp only [inspect, inspectChurn, hcfg, hnew, h.key, h.delta, h.nowNs]

/-! ## Runs -/

namespace Engine

variable {e e' f f' : Engine F} {evs evs' : List (L4Event F)}

omit [F64 F] in
/-- An engine is an arrangement of itself. -/
theorem SameTables.refl (e : Engine F) : e.SameTables e :=
  ⟨EngineState.SameTables.refl _, rfl, rfl, rfl⟩

omit [F64 F] in
/-- The first engine is an arrangement of the second. -/
theorem SameTables.symm (h : e.SameTables e') : e'.SameTables e :=
  ⟨h.state.symm, h.detectors.symm, h.lastSweepNs.symm, h.sweepIntervalNs.symm⟩

omit [F64 F] in
/-- The third engine is an arrangement of the first. -/
theorem SameTables.trans {e'' : Engine F} (h : e.SameTables e') (h' : e'.SameTables e'') :
    e.SameTables e'' where
  state := h.state.trans h'.state
  detectors := h'.detectors.trans h.detectors
  lastSweepNs := h'.lastSweepNs.trans h.lastSweepNs
  sweepIntervalNs := h'.sweepIntervalNs.trans h.sweepIntervalNs

/-- The detector chain reports the same, and ends in the same state. -/
theorem inspectAll_sameTables {ctx ctx' : DetectCtx F} (h : ctx.SameTables ctx')
    (detectors : List Detector) : inspectAll ctx' detectors = inspectAll ctx detectors := by
  simp only [inspectAll, Detector.inspect_sameTables h]

/-- One call of `process`, on both sides: the same events but for the order of the timeouts. -/
theorem SameTables.processes (h : e.SameTables e') {pkt : PacketMeta}
    (hp : e.Processes pkt evs f) (hp' : e'.Processes pkt evs' f') :
    f.SameTables f' ∧ evs'.Perm evs := by
  obtain ⟨ht⟩ := hp
  obtain ⟨ht'⟩ := hp'
  rename_i t t'
  obtain ⟨hstate, hdelta⟩ := h.state.update pkt
  have htables : t.SameTables t' := (ht.symm.trans hstate).trans ht'
  have hctx : DetectCtx.SameTables
      { state := t, key := (e.state.update pkt).2.1, delta := (e.state.update pkt).2.2,
        nowNs := pkt.tsNanos }
      { state := t', key := (e.state.update pkt).2.1, delta := (e.state.update pkt).2.2,
        nowNs := pkt.tsNanos } := ⟨htables, rfl, rfl, rfl⟩
  simp only [inspectAndSweep, hdelta, h.detectors, h.lastSweepNs, h.sweepIntervalNs,
    inspectAll_sameTables hctx]
  split_ifs
  · exact ⟨⟨htables.sweep _, rfl, rfl, rfl⟩, (htables.sweep_events _).append_left _⟩
  · exact ⟨⟨htables, rfl, rfl, rfl⟩, List.Perm.refl _⟩

/-- A call of `sweep`, with the tables in any arrangement when it starts. -/
inductive Sweeps (e : Engine F) (now : ℕ) : List (L4Event F) → Engine F → Prop
  | mk {t : EngineState F} (h : e.state.SameTables t) :
      Sweeps e now ({ e with state := t }.sweep now).2 ({ e with state := t }.sweep now).1

/-- The arrangement of the model is one of them. -/
theorem sweeps_sweep (e : Engine F) (now : ℕ) : e.Sweeps now (e.sweep now).2 (e.sweep now).1 :=
  Sweeps.mk (EngineState.SameTables.refl _)

/-- One call of `sweep`, on both sides. -/
theorem SameTables.sweeps (h : e.SameTables e') {now : ℕ} (hs : e.Sweeps now evs f)
    (hs' : e'.Sweeps now evs' f') : f.SameTables f' ∧ evs'.Perm evs := by
  obtain ⟨ht⟩ := hs
  obtain ⟨ht'⟩ := hs'
  rename_i t t'
  have htables : t.SameTables t' := (ht.symm.trans h.state).trans ht'
  exact ⟨⟨htables.sweep now, h.detectors, h.lastSweepNs, h.sweepIntervalNs⟩,
    htables.sweep_events now⟩

/-- **The arrangement of the tables does not matter.**  Two runs over the same packets report, call
by call, the same events up to order, and end with the same tables. -/
theorem SameTables.hashRun (h : e.SameTables e') {pkts : List PacketMeta}
    {outs outs' : List (List (L4Event F))} (hrun : HashRun e pkts outs f)
    (hrun' : HashRun e' pkts outs' f') :
    f.SameTables f' ∧ List.Forall₂ (fun evs evs' => evs'.Perm evs) outs outs' := by
  induction hrun generalizing e' outs' with
  | nil =>
      cases hrun'
      exact ⟨h, List.Forall₂.nil⟩
  | cons hp _ ih =>
      cases hrun' with
      | cons hp' hrest' =>
          obtain ⟨hstep, hevs⟩ := h.processes hp hp'
          obtain ⟨hend, houts⟩ := ih hstep hrest'
          exact ⟨hend, List.Forall₂.cons hevs houts⟩

end Engine
