/-
# Eviction is neither late nor early

The sweep that evicts idle flows is driven by packet time: `Engine.process` runs one when at
least a second has passed since the last.  `SweptUpTo` is what that gives at any point of a
run with non-decreasing timestamps: the last sweep is less than a second old, it left no flow
that had been idle for longer than the lifetime, and it took no other.
`Engine.eviction_timely` reads the bounds on the flow table off it.
-/
import L4Scope.FlowStep

variable {F : Type} [F64 F]

/-! ## When a key was last seen -/

/-- The time of the last of the packets on `k`. -/
def lastSeen (k : FlowKey) (pkts : List PacketMeta) : Option ℕ :=
  ((pkts.filter fun p => p.key = k).getLast?).map PacketMeta.tsNanos

/-- One more packet. -/
theorem lastSeen_concat (k : FlowKey) (pkts : List PacketMeta) (p : PacketMeta) :
    lastSeen k (pkts ++ [p]) = if p.key = k then some p.tsNanos else lastSeen k pkts := by
  rw [lastSeen, List.filter_append]
  by_cases h : p.key = k
  · rw [if_pos h, List.filter_cons_of_pos (by simpa using h), List.filter_nil,
      List.getLast?_concat, Option.map_some]
  · rw [if_neg h, List.filter_cons_of_neg (by simpa using h), List.filter_nil, List.append_nil,
      lastSeen]

/-- A flow was last seen with one of its packets. -/
theorem exists_of_lastSeen {k : FlowKey} {pkts : List PacketMeta} {t : ℕ}
    (h : lastSeen k pkts = some t) : ∃ p ∈ pkts, p.key = k ∧ p.tsNanos = t := by
  rw [lastSeen, Option.map_eq_some_iff] at h
  obtain ⟨p, hp, ht⟩ := h
  have hmem := List.mem_filter.1 (List.mem_of_getLast? hp)
  exact ⟨p, hmem.1, of_decide_eq_true hmem.2, ht⟩

/-! ## The invariant -/

/-- What holds of the engine after the packets `seen`, the last of them at time `now`, for a
flow lifetime of `ttl` nanoseconds. -/
structure SweptUpTo (ttl : ℕ) (e : Engine F) (seen : List PacketMeta) (now : ℕ) : Prop where
  interval : e.sweepIntervalNs = NS_PER_SEC
  lifetime : secsToNanos e.state.cfg.flowTtlSecs = ttl
  sweep_le : e.lastSweepNs ≤ now
  /-- A tracked flow remembers the last packet on its key. -/
  last : ∀ k f, e.state.flows.lookup k = some f → lastSeen k seen = some f.lastSeenNs
  last_ge : ∀ p ∈ seen, ∀ f, e.state.flows.lookup p.key = some f → p.tsNanos ≤ f.lastSeenNs
  /-- The last sweep left no flow that was idle for longer than the lifetime. -/
  not_late : ∀ k f, e.state.flows.lookup k = some f → e.lastSweepNs ≤ f.lastSeenNs + ttl
  /-- No flow seen within the lifetime was evicted. -/
  not_early : ∀ p ∈ seen, e.lastSweepNs ≤ p.tsNanos + ttl →
    ∃ f, e.state.flows.lookup p.key = some f

omit [F64 F] in
/-- Nothing to sweep at the start. -/
theorem SweptUpTo.new (cfg : DetectConfig F) :
    SweptUpTo (secsToNanos cfg.flowTtlSecs) (Engine.new cfg) [] 0 where
  interval := rfl
  lifetime := rfl
  sweep_le := Nat.le_refl 0
  last := by
    intro k f h
    simp [Engine.new, EngineState.new] at h
  last_ge := by simp
  not_late := by
    intro k f h
    simp [Engine.new, EngineState.new] at h
  not_early := by simp

namespace SweptUpTo

variable {ttl now : ℕ} {e : Engine F} {seen : List PacketMeta} {pkt : PacketMeta}

omit [F64 F] in
/-- A packet that is not older than those before it keeps the invariant. -/
theorem update (h : SweptUpTo ttl e seen now) (hnow : now ≤ pkt.tsNanos)
    (hseen : ∀ p ∈ seen, p.tsNanos ≤ pkt.tsNanos) (detectors : List Detector) :
    SweptUpTo ttl { e with state := (e.state.update pkt).1, detectors } (seen ++ [pkt])
      pkt.tsNanos where
  interval := h.interval
  lifetime := h.lifetime
  sweep_le := h.sweep_le.trans hnow
  last := by
    intro k f hf
    rw [EngineState.lookup_update] at hf
    rw [lastSeen_concat]
    split_ifs at hf with hk
    · rw [if_pos hk.symm, ← Option.some.inj hf, flowStep_lastSeenNs]
    · rw [if_neg (Ne.symm hk)]
      exact h.last k f hf
  last_ge := by
    intro p hp f hf
    rw [EngineState.lookup_update] at hf
    split_ifs at hf with hk
    · rw [← Option.some.inj hf, flowStep_lastSeenNs]
      rcases List.mem_append.1 hp with hp | hp
      · exact hseen p hp
      · rw [List.mem_singleton.1 hp]
    · rcases List.mem_append.1 hp with hp | hp
      · exact h.last_ge p hp f hf
      · exact absurd (congrArg PacketMeta.key (List.mem_singleton.1 hp)) hk
  not_late := by
    intro k f hf
    rw [EngineState.lookup_update] at hf
    split_ifs at hf with hk
    · rw [← Option.some.inj hf, flowStep_lastSeenNs]
      exact (h.sweep_le.trans hnow).trans (Nat.le_add_right _ _)
    · exact h.not_late k f hf
  not_early := by
    intro p hp hle
    rw [EngineState.lookup_update]
    split_ifs with hk
    · exact ⟨_, rfl⟩
    · rcases List.mem_append.1 hp with hp | hp
      · exact h.not_early p hp hle
      · exact absurd (congrArg PacketMeta.key (List.mem_singleton.1 hp)) hk

/-- A sweep at the present time renews the invariant. -/
theorem sweep (h : SweptUpTo ttl e seen now) :
    SweptUpTo ttl ({ e with lastSweepNs := now }.sweep now).1 seen now where
  interval := h.interval
  lifetime := by
    show secsToNanos (e.state.sweep now).1.cfg.flowTtlSecs = ttl
    rw [EngineState.sweep_cfg]
    exact h.lifetime
  sweep_le := Nat.le_refl now
  last := by
    intro k f' hf'
    obtain ⟨f, hf, hswept⟩ := EngineState.lookup_swept hf'
    rw [FlowState.lastSeenNs_of_frame (sweepFlow_eq_some hswept).2]
    exact h.last k f hf
  last_ge := by
    intro p hp f' hf'
    obtain ⟨f, hf, hswept⟩ := EngineState.lookup_swept hf'
    rw [FlowState.lastSeenNs_of_frame (sweepFlow_eq_some hswept).2]
    exact h.last_ge p hp f hf
  not_late := by
    intro k f' hf'
    obtain ⟨f, hf, hswept⟩ := EngineState.lookup_swept hf'
    obtain ⟨hidle, hframe⟩ := sweepFlow_eq_some hswept
    rw [FlowState.idle, h.lifetime, decide_eq_false_iff_not] at hidle
    rw [FlowState.lastSeenNs_of_frame hframe]
    show now ≤ f.lastSeenNs + ttl
    omega
  not_early := by
    intro p hp hle
    -- the flow was still tracked before this sweep, and is not idle for longer than `ttl`
    obtain ⟨f, hf⟩ := h.not_early p hp (h.sweep_le.trans hle)
    have hge := h.last_ge p hp f hf
    have hidle : f.idle (secsToNanos e.state.cfg.flowTtlSecs) now = false := by
      rw [FlowState.idle, h.lifetime, decide_eq_false_iff_not]
      have hle' : now ≤ p.tsNanos + ttl := hle
      omega
    obtain ⟨f', hf'⟩ := sweepFlow_of_not_idle hidle
    refine ⟨f', ?_⟩
    show (e.state.sweep now).1.flows.lookup p.key = some f'
    rw [EngineState.lookup_sweep, hf, Option.bind_some, hf']

/-- One packet, with the sweep that is due. -/
theorem process (h : SweptUpTo ttl e seen now) (hnow : now ≤ pkt.tsNanos)
    (hseen : ∀ p ∈ seen, p.tsNanos ≤ pkt.tsNanos) :
    SweptUpTo ttl (e.process pkt).1 (seen ++ [pkt]) pkt.tsNanos ∧
      pkt.tsNanos < (e.process pkt).1.lastSweepNs + NS_PER_SEC := by
  have hupd := h.update hnow hseen
  have hint := h.interval
  rw [Engine.process]
  split_ifs with hdue
  · refine ⟨(hupd _).sweep, ?_⟩
    show pkt.tsNanos < pkt.tsNanos + NS_PER_SEC
    rw [NS_PER_SEC]
    omega
  · refine ⟨hupd _, ?_⟩
    show pkt.tsNanos < e.lastSweepNs + NS_PER_SEC
    omega

end SweptUpTo

/-! ## Runs -/

namespace Engine

/-- The engine after a sequence of packets. -/
theorem sweptUpTo_after (cfg : DetectConfig F) (pkts : List PacketMeta) (pkt : PacketMeta)
    (hmono : (pkts ++ [pkt]).Pairwise fun p q => p.tsNanos ≤ q.tsNanos) :
    let e := machine.after (new cfg) ((pkts ++ [pkt]).map Call.process)
    SweptUpTo (secsToNanos cfg.flowTtlSecs) e (pkts ++ [pkt]) pkt.tsNanos ∧
      pkt.tsNanos < e.lastSweepNs + NS_PER_SEC := by
  induction pkts using List.reverseRecOn generalizing pkt with
  | nil =>
      exact (SweptUpTo.new cfg).process (Nat.zero_le _) (by simp)
  | append_singleton pkts p ih =>
      obtain ⟨hprev, -, hlast⟩ := List.pairwise_append.1 hmono
      have hle : ∀ q ∈ pkts ++ [p], q.tsNanos ≤ pkt.tsNanos := by
        intro q hq
        exact hlast q hq pkt (List.mem_singleton.2 rfl)
      obtain ⟨hinv, -⟩ := ih p hprev
      dsimp only
      rw [List.map_append, List.map_singleton, Machine.after_concat]
      exact hinv.process (hle p (by simp)) hle

/-- The keys seen less than `age` before `now`. -/
def keysSeen (age now : ℕ) (pkts : List PacketMeta) : Finset FlowKey :=
  ((pkts.filter fun p => now < p.tsNanos + age).map PacketMeta.key).toFinset

/-- **Eviction is neither late nor early.**  After a packet at time `now`, every key seen
within the lifetime is tracked, every tracked flow was last seen less than the lifetime and a
second ago, there are at most as many flows as keys seen in that time, and the packet's own
flow is among them. -/
theorem eviction_timely (cfg : DetectConfig F) (pkts : List PacketMeta) (pkt : PacketMeta)
    (hmono : (pkts ++ [pkt]).Pairwise fun p q => p.tsNanos ≤ q.tsNanos)
    (httl : cfg.flowTtlSecs * 10 ^ 9 < 2 ^ 64) :
    let flows := (machine.after (new cfg) ((pkts ++ [pkt]).map Call.process)).state.flows
    let ttl := cfg.flowTtlSecs * 10 ^ 9
    (∀ p ∈ pkts ++ [pkt], pkt.tsNanos ≤ p.tsNanos + ttl → p.key ∈ flows) ∧
    (∀ k f, flows.lookup k = some f → lastSeen k (pkts ++ [pkt]) = some f.lastSeenNs ∧
      pkt.tsNanos < f.lastSeenNs + (ttl + 10 ^ 9)) ∧
    Table.size flows ≤ (keysSeen (ttl + 10 ^ 9) pkt.tsNanos (pkts ++ [pkt])).card ∧
    pkt.key ∈ flows := by
  have hns : NS_PER_SEC = 10 ^ 9 := rfl
  have hnanos : secsToNanos cfg.flowTtlSecs = cfg.flowTtlSecs * 10 ^ 9 := by
    rw [secsToNanos_eq (by rw [hns]; omega), hns, Nat.mul_comm]
  obtain ⟨hinv, hrecent⟩ := sweptUpTo_after cfg pkts pkt hmono
  rw [hnanos] at hinv
  intro flows ttl
  have hkept : ∀ p ∈ pkts ++ [pkt], pkt.tsNanos ≤ p.tsNanos + ttl → p.key ∈ flows := by
    intro p hp hle
    obtain ⟨f, hf⟩ := hinv.not_early p hp (hinv.sweep_le.trans hle)
    exact AList.lookup_isSome.1 (Option.isSome_iff_exists.2 ⟨f, hf⟩)
  have hfresh : ∀ k f, flows.lookup k = some f → lastSeen k (pkts ++ [pkt]) = some f.lastSeenNs ∧
      pkt.tsNanos < f.lastSeenNs + (ttl + 10 ^ 9) := by
    intro k f hf
    have hlate := hinv.not_late k f hf
    refine ⟨hinv.last k f hf, ?_⟩
    rw [← Nat.add_assoc]
    exact hrecent.trans_le (Nat.add_le_add_right hlate _)
  refine ⟨hkept, hfresh, ?_, hkept pkt (by simp) (Nat.le_add_right _ _)⟩
  apply Table.size_le_card
  intro k f hf
  -- the packet that was the last on `k` is recent
  obtain ⟨hlast, hlt⟩ := hfresh k f hf
  obtain ⟨p, hp, rfl, ht⟩ := exists_of_lastSeen hlast
  rw [keysSeen, List.mem_toFinset, List.mem_map]
  refine ⟨p, List.mem_filter.2 ⟨hp, ?_⟩, rfl⟩
  rw [ht]
  exact decide_eq_true hlt

/-- A SYN, and a packet of another flow 122 seconds later: the first flow is gone. -/
def gapRun : List PacketMeta :=
  [Sample.tcp 0 (Sample.ep 1 5000) (Sample.ep 2 80) 0x02 100 0 64240 0,
    Sample.tcp 122000000000 (Sample.ep 3 5000) (Sample.ep 2 80) 0x02 100 0 64240 0]

/-- After the gap only the flow of the last packet is left. -/
theorem eviction_timely_gap :
    Table.size
      (machine.after (new (DetectConfig.default ℚ)) (gapRun.map Call.process)).state.flows ≤ 1 :=
  (eviction_timely (DetectConfig.default ℚ) [gapRun[0]] gapRun[1] (by decide)
    (by decide)).2.2.1.trans (by decide)

end Engine
