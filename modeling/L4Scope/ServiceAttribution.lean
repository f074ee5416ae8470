/-
# Which endpoint a half-open connection is charged to

The service of a flow is guessed once, from the packet that inserts the flow; the connection
is counted for that service when its bare SYN arrives, possibly much later.
`Engine.service_attribution` compares the two packets: it says for every counted flow whether
its service is the destination of the SYN.
-/
import L4Scope.Handshake

/-! ## The handshake bits of a flow -/

namespace Handshake

/-- Only a first bare SYN counts a connection. -/
theorem counted_onPacket {h : Handshake} {p : PacketMeta}
    (hc : (h.onPacket p).1.counted = true) :
    h.counted = true ∨ (p.bareSyn = true ∧ h.synTimeNs = none) := by
  rw [PacketMeta.bareSyn_eq, decide_eq_true_eq]
  rw [onPacket] at hc
  cases hseg : p.segment with
  | none =>
      rw [hseg] at hc
      exact Or.inl hc
  | some seg =>
      rw [hseg] at hc
      cases seg with
      | syn =>
          cases hsyn : h.synTimeNs with
          | none => exact Or.inr ⟨rfl, rfl⟩
          | some t =>
              simp only [step, onSyn, hsyn] at hc
              exact Or.inl hc
      | synAck => exact Or.inl hc
      | rst => simp [step, Handshake.onRst] at hc
      | other ack fin =>
          left
          simp only [step, onFin, onAck] at hc
          split_ifs at hc
          exact hc

/-- A bare SYN on a new flow is counted. -/
theorem onPacket_init {p : PacketMeta} (hp : p.bareSyn = true) :
    (init.onPacket p).1.counted = true ∧ (init.onPacket p).1.synTimeNs.isSome := by
  rw [PacketMeta.bareSyn_eq, decide_eq_true_eq] at hp
  rw [onPacket, hp]
  exact ⟨rfl, rfl⟩

end Handshake

/-! ## The two packets that matter -/

variable {F : Type}

namespace EngineState

/-- The flow is in the table. -/
def tracked (k : FlowKey) (s : EngineState F) : Bool := (s.flows.lookup k).isSome

/-- The flow is counted as half-open. -/
def counted (k : FlowKey) (s : EngineState F) : Bool :=
  (s.flows.lookup k).any FlowState.halfOpenCounted

end EngineState

variable [F64 F]

/-- What the log says about a tracked flow: which packet inserted it, and by which packet it
is counted, if it is. -/
structure Attributed (k : FlowKey) (log : List (Machine.Entry (EngineState F) Op (Out F)))
    (f : FlowState) (first : PacketMeta) : Prop where
  inserted : EngineState.machine.turnedOn (EngineState.tracked k) log = some (.update first)
  key_eq : first.key = k
  service : f.service = guessService first
  /-- A flow inserted by a bare SYN is counted by it, and never again. -/
  by_first : first.bareSyn = true → f.synTimeNs.isSome ∧
    EngineState.machine.turnedOn (EngineState.counted k) log = some (.update first)
  by_syn : f.halfOpenCounted = true → ∃ syn,
    EngineState.machine.turnedOn (EngineState.counted k) log = some (.update syn) ∧
      syn.key = k ∧ syn.bareSyn = true

namespace Attributed

open EngineState

variable {k : FlowKey} {s : EngineState F} {log : List (Machine.Entry (EngineState F) Op (Out F))}
  {f : FlowState} {first pkt : PacketMeta}

/-- A step that leaves the flow tracked and does not count it. -/
theorem keep (h : Attributed k log f first) (hf : s.flows.lookup k = some f) {op : Op} {out : Out F}
    {f' : FlowState} (hf' : (machine.step s op).1.flows.lookup k = some f')
    (hservice : f'.service = f.service) (hsyn : f.synTimeNs.isSome → f'.synTimeNs.isSome)
    (hcounted : f'.halfOpenCounted = true → f.halfOpenCounted = true) :
    Attributed k (log ++ [⟨s, op, out⟩]) f' first := by
  have htracked : machine.turnedOn (tracked k) (log ++ [⟨s, op, out⟩])
      = machine.turnedOn (tracked k) log := by
    apply machine.turnedOn_concat_same
    intro _
    rw [tracked, hf]
    rfl
  have hsame : machine.turnedOn (counted k) (log ++ [⟨s, op, out⟩])
      = machine.turnedOn (counted k) log := by
    apply machine.turnedOn_concat_same
    intro hon
    rw [counted, hf'] at hon
    rw [counted, hf]
    exact hcounted hon
  constructor
  · rw [htracked]
    exact h.inserted
  · exact h.key_eq
  · rw [hservice]
    exact h.service
  · intro hfirst
    rw [hsame]
    exact ⟨hsyn (h.by_first hfirst).1, (h.by_first hfirst).2⟩
  · intro hc
    rw [hsame]
    exact h.by_syn (hcounted hc)

omit [F64 F] in
/-- What a packet leaves under its key. -/
theorem lookup_step (hkey : pkt.key = k) :
    (s.update pkt).1.flows.lookup k = some (flowStep pkt (s.flows.lookup k)).1 := by
  rw [lookup_update, if_pos hkey.symm]

/-- The packet that inserts a flow. -/
theorem insert (hkey : pkt.key = k) (hf : s.flows.lookup k = none) {out : Out F} :
    Attributed k (log ++ [⟨s, .update pkt, out⟩]) (flowStep pkt none).1 pkt := by
  have hstep := lookup_step (s := s) hkey
  rw [hf] at hstep
  have hhand := handshake_flowStep_fst pkt none
  have hturned : (flowStep pkt none).1.halfOpenCounted = true →
      machine.turnedOn (counted k) (log ++ [⟨s, .update pkt, out⟩]) = some (.update pkt) := by
    intro hc
    apply machine.turnedOn_concat_new
    · rw [counted, hf]
      rfl
    · rw [step_update, counted, hstep]
      exact hc
  constructor
  · apply machine.turnedOn_concat_new
    · rw [tracked, hf]
      rfl
    · rw [step_update, tracked, hstep]
      rfl
  · exact hkey
  · exact flowStep_service pkt none
  · intro hsyn
    obtain ⟨hc, htime⟩ := Handshake.onPacket_init hsyn
    have hc' : (flowStep pkt none).1.halfOpenCounted = true :=
      (congrArg Handshake.counted hhand).trans hc
    refine ⟨?_, hturned hc'⟩
    exact (congrArg (fun h => h.synTimeNs.isSome) hhand).trans htime
  · intro hc
    refine ⟨pkt, hturned hc, hkey, ?_⟩
    have hc' := (congrArg Handshake.counted hhand).symm.trans hc
    rcases Handshake.counted_onPacket hc' with hinit | ⟨hsyn, -⟩
    · exact absurd hinit (by decide)
    · exact hsyn

/-- Another packet of a tracked flow. -/
theorem packet (h : Attributed k log f first) (hkey : pkt.key = k)
    (hf : s.flows.lookup k = some f) {out : Out F} :
    Attributed k (log ++ [⟨s, .update pkt, out⟩]) (flowStep pkt (some f)).1 first := by
  have hstep := lookup_step (s := s) hkey
  rw [hf] at hstep
  have hhand := handshake_flowStep_fst pkt (some f)
  have htime : f.synTimeNs.isSome → (flowStep pkt (some f)).1.synTimeNs.isSome := by
    intro hsyn
    have hkept : f.handshake.synTimeNs.isSome := hsyn
    rw [flowStep_synTimeNs, handshakeOf_some, Option.isSome_or, hkept, Bool.true_or]
  by_cases hkeep : (flowStep pkt (some f)).1.halfOpenCounted = true → f.halfOpenCounted = true
  · exact h.keep hf hstep (flowStep_service pkt (some f)) htime hkeep
  · -- this packet is the SYN the flow is counted by
    obtain ⟨hc, hnot⟩ := Classical.not_imp.1 hkeep
    have hc' := (congrArg Handshake.counted hhand).symm.trans hc
    rcases Handshake.counted_onPacket hc' with hold | ⟨hsyn, hnone⟩
    · exact absurd hold hnot
    · constructor
      · rw [machine.turnedOn_concat_same]
        · exact h.inserted
        · intro _
          rw [tracked, hf]
          rfl
      · exact h.key_eq
      · exact (flowStep_service pkt (some f)).trans h.service
      · intro hfirst
        have hsome := (h.by_first hfirst).1
        have hnone' : f.synTimeNs = none := hnone
        rw [hnone'] at hsome
        simp at hsome
      · intro _
        refine ⟨pkt, ?_, hkey, hsyn⟩
        apply machine.turnedOn_concat_new
        · simpa [counted, hf] using hnot
        · rw [step_update, counted, hstep]
          exact hc

end Attributed

/-- Every tracked flow is attributed. -/
theorem EngineState.exists_attributed (cfg : DetectConfig F) (ops : List Op) {k : FlowKey}
    {f : FlowState} (hf : (machine.after (new cfg) ops).flows.lookup k = some f) :
    ∃ first, Attributed k (machine.log (new cfg) ops) f first := by
  induction ops using List.reverseRecOn generalizing f with
  | nil => simp [new] at hf
  | append_singleton ops op ih =>
      rw [Machine.after_concat] at hf
      rw [Machine.log_concat]
      cases op with
      | update pkt =>
          rw [step_update, lookup_update] at hf
          split_ifs at hf with hk
          · obtain rfl := Option.some.inj hf
            cases hold : (machine.after (new cfg) ops).flows.lookup k with
            | none => exact ⟨pkt, Attributed.insert hk.symm hold⟩
            | some g =>
                obtain ⟨first, hfirst⟩ := ih hold
                exact ⟨first, hfirst.packet hk.symm hold⟩
          · obtain ⟨first, hfirst⟩ := ih hf
            refine ⟨first, hfirst.keep hf ?_ rfl id id⟩
            rw [step_update, lookup_update, if_neg hk]
            exact hf
      | sweep now =>
          obtain ⟨g, hg, hswept⟩ := lookup_swept hf
          obtain ⟨first, hfirst⟩ := ih hg
          have hhand := handshake_sweepFlow hswept
          refine ⟨first, hfirst.keep hg hf
            (FlowState.service_of_frame (sweepFlow_eq_some hswept).2) ?_ ?_⟩
          · intro hsyn
            have htime := (congrArg (fun h => h.synTimeNs) hhand).trans
              (Handshake.onSweep_synTimeNs _ _ g.handshake)
            exact (congrArg Option.isSome htime).trans hsyn
          · intro hc
            exact Handshake.counted_of_onSweep ((congrArg Handshake.counted hhand).symm.trans hc)

/-! ## The service of a counted flow -/

/-- The service guessed from `first` is the destination of the SYN: `first` is a SYN itself, or
the destination has the smaller port, or the ports are equal and `first` goes the same way, or
the two endpoints are one. -/
def GuessedRight (first syn : PacketMeta) : Prop :=
  first.bareSyn = true ∨ (endpoints syn).2.port < (endpoints syn).1.port ∨
    ((endpoints syn).2.port = (endpoints syn).1.port ∧ first.dir = syn.dir) ∨
    (endpoints syn).1 = (endpoints syn).2

/-- Two packets of one flow have the same endpoints, swapped if they go opposite ways. -/
theorem endpoints_of_key_eq {p q : PacketMeta} (hkey : p.key = q.key) :
    endpoints p = if p.dir = q.dir then endpoints q else (endpoints q).swap := by
  rw [endpoints, endpoints, hkey]
  cases p.dir <;> cases q.dir <;> rfl

/-- The guess, spelled out for two packets of one flow. -/
theorem guessService_eq_iff {first syn : PacketMeta} (hkey : first.key = syn.key)
    (hfirst : first.bareSyn = true → syn = first) :
    guessService first = (endpoints syn).2 ↔ GuessedRight first syn := by
  have hbare : (first.proto = .tcp ∧ first.flags.isSynOnly) ↔ first.bareSyn = true := by
    simp [PacketMeta.bareSyn]
  by_cases hb : first.bareSyn = true
  · rw [hfirst hb, guessService]
    simp only [if_pos (hbare.2 hb), GuessedRight, hb, true_or]
  have hguess : guessService first
      = if (endpoints first).2.port ≤ (endpoints first).1.port then (endpoints first).2
        else (endpoints first).1 := by
    rw [guessService]
    simp only [if_neg (fun h => hb (hbare.1 h))]
  rw [hguess, endpoints_of_key_eq hkey, GuessedRight, or_iff_right hb]
  obtain ⟨src, dst⟩ := endpoints syn
  by_cases hdir : first.dir = syn.dir
  · -- the destination is the guess unless its port is larger
    rw [if_pos hdir, and_iff_left hdir]
    dsimp only
    by_cases hle : dst.port ≤ src.port
    · rw [if_pos hle, eq_self_iff_true, true_iff]
      rcases UInt16.lt_or_eq_of_le hle with hlt | heq
      · exact Or.inl hlt
      · exact Or.inr (Or.inl heq)
    · rw [if_neg hle]
      constructor
      · intro h
        exact Or.inr (Or.inr h)
      · rintro (hlt | heq | h)
        · exact absurd (UInt16.le_of_lt hlt) hle
        · exact absurd (UInt16.le_of_eq heq) hle
        · exact h
  · -- the destination is the guess only if its port is smaller
    rw [if_neg hdir, Prod.swap_prod_mk]
    dsimp only
    by_cases hle : src.port ≤ dst.port
    · rw [if_pos hle]
      constructor
      · intro h
        exact Or.inr (Or.inr h)
      · rintro (hlt | ⟨-, hsame⟩ | h)
        · exact absurd hle (UInt16.not_le.2 hlt)
        · exact absurd hsame hdir
        · exact h
    · rw [if_neg hle, eq_self_iff_true, true_iff]
      exact Or.inl (UInt16.not_le.1 hle)

namespace Engine

/-- **A counted flow is charged to the destination of its SYN exactly if the packet that
inserted the flow led to the right guess.** -/
theorem service_attribution (cfg : DetectConfig F) (calls : List Call) {k : FlowKey}
    {f : FlowState} (hf : (machine.after (new cfg) calls).state.flows.lookup k = some f)
    (hc : f.halfOpenCounted = true) :
    let log := EngineState.machine.log (EngineState.new cfg) ((new cfg).ops calls)
    ∃ first syn,
      EngineState.machine.turnedOn (EngineState.tracked k) log = some (.update first) ∧
      EngineState.machine.turnedOn (EngineState.counted k) log = some (.update syn) ∧
      syn.bareSyn = true ∧
      (f.service = (endpoints syn).2 ↔ GuessedRight first syn) := by
  rw [state_after] at hf
  obtain ⟨first, h⟩ := EngineState.exists_attributed cfg _ hf
  obtain ⟨syn, hsyn, hkey, hbare⟩ := h.by_syn hc
  refine ⟨first, syn, h.inserted, hsyn, hbare, ?_⟩
  rw [h.service]
  apply guessService_eq_iff (h.key_eq.trans hkey.symm)
  intro hfirst
  have hsame := (h.by_first hfirst).2
  rw [hsyn] at hsame
  simpa using hsame

/-- A stray ACK of a server at port 80. -/
def serverAck : PacketMeta := Sample.tcp 0 (Sample.ep 2 80) (Sample.ep 1 5000) 0x10 100 0 64240 0

/-- A connection request to that port. -/
def request : PacketMeta := Sample.tcp 1 (Sample.ep 1 5000) (Sample.ep 2 80) 0x02 100 0 64240 0

/-- First the ACK, then the request. -/
def synRun : List Call := [.process serverAck, .process request]

/-- The stray ACK inserts the flow, and the request is counted: it is charged to its destination
exactly if the guess from the ACK was right. -/
theorem service_attribution_syn :
    ∃ f, (machine.after (new (DetectConfig.default ℚ)) synRun).state.flows.lookup
        ⟨Sample.ep 1 5000, Sample.ep 2 80, .tcp⟩ = some f ∧
      (f.service = (endpoints request).2 ↔ GuessedRight serverAck request) := by
  obtain ⟨first, syn, hfirst, hsyn, -, h⟩ :=
    service_attribution (DetectConfig.default ℚ) synRun
      (k := ⟨Sample.ep 1 5000, Sample.ep 2 80, .tcp⟩) rfl rfl
  have hack : some (Op.update serverAck) = some (.update first) := hfirst
  have hrequest : some (Op.update request) = some (.update syn) := hsyn
  cases hack
  cases hrequest
  exact ⟨_, rfl, h⟩

/-- A stray ACK of a client with the smaller port, then its connection request. -/
def strayRun : List Call :=
  [.process (Sample.tcp 0 (Sample.ep 1 5000) (Sample.ep 2 9000) 0x10 100 0 64240 0),
    .process (Sample.tcp 1 (Sample.ep 1 5000) (Sample.ep 2 9000) 0x02 100 0 64240 0)]

/-- The connection is charged to the client. -/
theorem service_not_destination :
    ∃ k f syn, (machine.after (new (DetectConfig.default ℚ)) strayRun).state.flows.lookup k
        = some f ∧ f.halfOpenCounted = true ∧
      EngineState.machine.turnedOn (EngineState.counted k)
        (EngineState.machine.log (EngineState.new (DetectConfig.default ℚ))
          ((new (DetectConfig.default ℚ)).ops strayRun)) = some (.update syn) ∧
      f.service ≠ (endpoints syn).2 := by
  refine ⟨⟨Sample.ep 1 5000, Sample.ep 2 9000, .tcp⟩, _, _, rfl, rfl, rfl, ?_⟩
  decide

end Engine
