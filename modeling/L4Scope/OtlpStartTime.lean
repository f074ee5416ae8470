/-
# The start time of the exported sums

Two threads push OTLP bodies.  The exporter's pushes all have the start time that `start` has
read.  The agent's `flush`, at the end of its run, reads the clock again for the start time of its
own push, although the sums in it have been accumulating all along.

Both threads run against one clock, in any interleaving; `oneStart_iff` says after which of these
runs a collector sees one start time for each series.
-/
import L4Scope.Agent
import L4Scope.OtlpJson
import L4Scope.SeriesValues

variable {F ε : Type}

/-! ## Pushed bodies -/

/-- An operation on the registry, and what the clock showed then. -/
structure Recording (F : Type) where
  op : RegistryOp F
  atNs : ℕ

/-- A push: the recordings in its snapshot of the registry, and the times of its body. -/
structure Push (F : Type) where
  recorded : List (Recording F)
  startNs : ℕ
  timeNs : ℕ

namespace Push

/-- The snapshot that the push sends. -/
def snap [F64 F] (p : Push F) : MetricsSnapshot F :=
  Registry.snapshotAfter (p.recorded.map Recording.op)

/-- The body that `build_and_post` posts. -/
def body [F64 F] [F64Display F] (p : Push F) (resourceAttrs : List (String × String)) : String :=
  buildBody p.snap resourceAttrs p.startNs p.timeNs

/-- The series of the body, and their values. -/
def series [F64 F] (p : Push F) : List (CounterSeries × ℕ) := p.snap.otlpSeries

/-- The recordings since `ns` that count in a series. -/
def countSince (p : Push F) (series : CounterSeries) (ns : ℕ) : ℕ :=
  p.recorded.countP fun r => r.op.countsIn series && decide (ns ≤ r.atNs)

/-- Each point of the later body has the start time of the earlier one's, or starts anew after
it and counts from there. -/
def Continues [F64 F] (p p' : Push F) : Prop :=
  ∀ series n n', (series, n) ∈ p.series → (series, n') ∈ p'.series →
    p.startNs = p'.startNs ∨ (p.timeNs ≤ p'.startNs ∧ n' = p'.countSince series p'.startNs)

/-- No point counts what was recorded before its start time. -/
def CountsSinceStart [F64 F] (p : Push F) : Prop :=
  ∀ series n, (series, n) ∈ p.series → ∀ r ∈ p.recorded, r.op.countsIn series = true →
    p.startNs ≤ r.atNs

end Push

/-- What a collector relies on: the bodies, in the order in which they are pushed, keep the start
time of each series, and none starts after what it counts. -/
structure OneStart [F64 F] (pushes : List (Push F)) : Prop where
  continues : pushes.Pairwise Push.Continues
  recordings : ∀ p ∈ pushes, p.CountsSinceStart

/-! ## The run of the two threads -/

/-- How far the final flush has come: it reads its start time, takes its snapshot, and reads the
time of its push. -/
inductive Flush (F : Type) where
  | waiting
  | started (startNs : ℕ)
  | snapped (startNs : ℕ) (recorded : List (Recording F))
  | pushed (startNs : ℕ)

/-- The agent's clock, its recordings and the pushes so far. -/
structure OtlpRun (F : Type) where
  /-- The clock. -/
  now : ℕ
  /-- The start time of the exporter's thread. -/
  startNs : ℕ
  /-- What the agent has yet to do to the registry. -/
  todo : List (RegistryOp F)
  recorded : List (Recording F)
  /-- The snapshot the exporter's thread has in hand. -/
  snapped : Option (List (Recording F))
  flush : Flush F
  pushes : List (Push F)

/-- A step: of the clock, of the agent or of the exporter's thread. -/
inductive OtlpAct where
  | wait (ns : ℕ)
  | record
  | snapshot
  | push
  | flushStart
  | flushSnapshot
  | flushPush

namespace OtlpRun

/-- The run of an agent with OTLP enabled, when `start` has read its start time. -/
def init [F64 F] [ToString ε] (s : Setup F ε) (startNs : ℕ) : OtlpRun F where
  now := startNs
  startNs := startNs
  todo := s.agent.registryOps
  recorded := []
  snapped := none
  flush := .waiting
  pushes := []

/-- A thread that is not ready for the step waits. -/
def step (s : OtlpRun F) : OtlpAct → OtlpRun F
  | .wait ns => { s with now := s.now + ns }
  | .record =>
    match s.todo with
    | op :: ops => { s with todo := ops, recorded := s.recorded ++ [⟨op, s.now⟩] }
    | [] => s
  | .snapshot =>
    match s.snapped with
    | none => { s with snapped := some s.recorded }
    | some _ => s
  | .push =>
    match s.snapped with
    | some recorded =>
      { s with snapped := none, pushes := s.pushes ++ [⟨recorded, s.startNs, s.now⟩] }
    | none => s
  | .flushStart =>
    match s.todo, s.flush with
    | [], .waiting => { s with flush := .started s.now }
    | _, _ => s
  | .flushSnapshot =>
    match s.flush with
    | .started startNs => { s with flush := .snapped startNs s.recorded }
    | _ => s
  | .flushPush =>
    match s.flush with
    | .snapped startNs recorded =>
      { s with
        flush := .pushed startNs
        pushes := s.pushes ++ [⟨recorded, startNs, s.now⟩] }
    | _ => s

/-- The interleavings of clock, agent and exporter. -/
def machine : Machine (OtlpRun F) OtlpAct Unit where
  step s a := (s.step a, ())

/-! ## When a step keeps the start time -/

/-- A flush may push if it has the start time of the exporter's thread, or if nothing was counted
before it began and no body is younger than that; and once it has pushed, the exporter's thread
may push only if they have the same start time. -/
def KeepsStart (s : OtlpRun F) : OtlpAct → Prop
  | .push =>
    match s.snapped, s.flush with
    | some _, .pushed startNs => startNs = s.startNs
    | _, _ => True
  | .flushPush =>
    match s.flush with
    | .snapped startNs recorded => startNs = s.startNs ∨
      ((∀ r ∈ recorded, r.op.isCounted → startNs ≤ r.atNs) ∧ ∀ p ∈ s.pushes, p.timeNs ≤ startNs)
    | _ => True
  | _ => True

end OtlpRun

/-! ## What holds of every push -/

section Series

variable [F64 F]

/-- Every data point of a sum in the body has the times of the push. -/
theorem Push.body_times [F64Display F] {p : Push F} {pairs : List (String × String)} {doc : Json}
    (hrst : (F64Display.display p.snap.rstPerSec).Finite)
    (hnew : (F64Display.display p.snap.newFlowPerSec).Finite)
    (hdoc : Json.parse (p.body pairs) = some doc) {ms : List Json}
    (hms : Otlp.metrics doc = some ms) :
    ∀ j ∈ ms, ∀ x ∈ Otlp.sumItems j, Otlp.pointTimes x = some (p.startNs, p.timeNs) := by
  have hparse := Otlp.parse_of_covers p.startNs p.timeNs hrst hnew (Otlp.covers_of_parse hdoc)
  rw [Push.body, hparse, Option.some.injEq] at hdoc
  rw [← hdoc] at hms
  exact Otlp.pointTimes_bodyDoc hms

/-- The packets are in every body. -/
theorem Push.packets_mem_series (p : Push F) : ∃ n, (CounterSeries.packets, n) ∈ p.series :=
  ⟨_, Registry.mem_otlpSeries.2 ⟨rfl, Or.inl rfl⟩⟩

/-- A counter counts since any time before all its recordings. -/
theorem Push.eq_countSince {p : Push F} {series : CounterSeries} {n ns : ℕ}
    (hn : (series, n) ∈ p.series)
    (hns : ∀ r ∈ p.recorded, r.op.countsIn series = true → ns ≤ r.atNs) :
    n = p.countSince series ns := by
  rw [(Registry.mem_otlpSeries.1 hn).1, List.countP_map, Push.countSince]
  apply List.countP_congr
  intro r hr
  simp only [Function.comp_apply, Bool.and_eq_true, decide_eq_true_eq]
  exact (and_iff_left_of_imp (hns r hr)).symm

/-- One more push. -/
theorem oneStart_concat {ps : List (Push F)} {p : Push F} :
    OneStart (ps ++ [p])
      ↔ OneStart ps ∧ (∀ q ∈ ps, q.Continues p) ∧ p.CountsSinceStart := by
  constructor
  · rintro ⟨hcontinues, hrecordings⟩
    obtain ⟨hps, -, hp⟩ := List.pairwise_append.1 hcontinues
    exact ⟨⟨hps, fun q hq => hrecordings q (List.mem_append_left _ hq)⟩,
      fun q hq => hp q hq p List.mem_cons_self,
      hrecordings p (List.mem_append_right _ List.mem_cons_self)⟩
  · rintro ⟨⟨hps, hrecordings⟩, hp, hcounts⟩
    constructor
    · refine List.pairwise_append.2 ⟨hps, List.pairwise_singleton _ _, ?_⟩
      intro q hq p' hp'
      rw [List.mem_singleton.1 hp']
      exact hp q hq
    · intro q hq
      rcases List.mem_append.1 hq with hq | hq
      · exact hrecordings q hq
      · rw [List.mem_singleton.1 hq]
        exact hcounts

end Series

namespace OtlpRun

/-- What holds of every state of a run. -/
structure Inv (s : OtlpRun F) : Prop where
  start_le : s.startNs ≤ s.now
  recorded : ∀ r ∈ s.recorded, s.startNs ≤ r.atNs
  snapped : ∀ rs ∈ s.snapped, ∀ r ∈ rs, s.startNs ≤ r.atNs
  flushStarted : ∀ ns, s.flush = .started ns → s.startNs ≤ ns ∧ ns ≤ s.now
  flushSnapped : ∀ ns rs, s.flush = .snapped ns rs →
    (s.startNs ≤ ns ∧ ns ≤ s.now) ∧ ∀ r ∈ rs, s.startNs ≤ r.atNs
  flushPushed : ∀ ns, s.flush = .pushed ns →
    s.startNs ≤ ns ∧ ∃ p ∈ s.pushes, p.startNs = ns ∧ ns ≤ p.timeNs
  pushes : ∀ p ∈ s.pushes, p.startNs = s.startNs ∨ s.flush = .pushed p.startNs

/-- The invariant holds at the start. -/
theorem inv_init [F64 F] [ToString ε] (s : Setup F ε) (startNs : ℕ) : (init s startNs).Inv where
  start_le := le_rfl
  recorded := by simp [init]
  snapped := by simp [init]
  flushStarted := by simp [init]
  flushSnapped := by simp [init]
  flushPushed := by simp [init]
  pushes := by simp [init]

/-- Before the flush has pushed, all bodies are the exporter's. -/
theorem Inv.starts {s : OtlpRun F} (h : s.Inv) (hflush : ∀ ns, s.flush ≠ .pushed ns) :
    ∀ p ∈ s.pushes, p.startNs = s.startNs :=
  fun p hp => (h.pushes p hp).resolve_right (hflush p.startNs)

namespace Inv

variable {s : OtlpRun F}

/-- The clock moves. -/
theorem wait (h : s.Inv) (ns : ℕ) : Inv { s with now := s.now + ns } := by
  have hnow : s.now ≤ s.now + ns := Nat.le_add_right _ _
  constructor
  · exact h.start_le.trans hnow
  · exact h.recorded
  · exact h.snapped
  · intro t ht
    exact ⟨(h.flushStarted t ht).1, (h.flushStarted t ht).2.trans hnow⟩
  · intro t rs ht
    obtain ⟨⟨hle, ht⟩, hrs⟩ := h.flushSnapped t rs ht
    exact ⟨⟨hle, ht.trans hnow⟩, hrs⟩
  · exact h.flushPushed
  · exact h.pushes

/-- A push of the exporter's thread. -/
theorem push (h : s.Inv) (rs : List (Recording F)) :
    Inv { s with snapped := none, pushes := s.pushes ++ [⟨rs, s.startNs, s.now⟩] } := by
  refine { h with snapped := by simp, flushPushed := ?_, pushes := ?_ }
  · intro t ht
    obtain ⟨hle, p, hp, hstart⟩ := h.flushPushed t ht
    exact ⟨hle, p, List.mem_append_left _ hp, hstart⟩
  · exact List.forall_mem_append.2 ⟨h.pushes, by simp⟩

/-- A flush begins by reading the clock. -/
theorem flushStart (h : s.Inv) (hwaiting : s.flush = .waiting) :
    Inv { s with flush := .started s.now } := by
  constructor
  · exact h.start_le
  · exact h.recorded
  · exact h.snapped
  · intro t ht
    rw [← Flush.started.inj ht]
    exact ⟨h.start_le, le_rfl⟩
  · exact fun t rs ht => nomatch ht
  · exact fun t ht => nomatch ht
  · exact fun p hp => Or.inl (h.starts (by simp [hwaiting]) p hp)

/-- It takes its snapshot then. -/
theorem flushSnapshot (h : s.Inv) {ns : ℕ} (hstarted : s.flush = .started ns) :
    Inv { s with flush := .snapped ns s.recorded } := by
  constructor
  · exact h.start_le
  · exact h.recorded
  · exact h.snapped
  · exact fun t ht => nomatch ht
  · intro t rs ht
    obtain ⟨rfl, rfl⟩ := Flush.snapped.inj ht
    exact ⟨h.flushStarted _ hstarted, h.recorded⟩
  · exact fun t ht => nomatch ht
  · exact fun p hp => Or.inl (h.starts (by simp [hstarted]) p hp)

/-- The push of the flush. -/
theorem flushPush (h : s.Inv) {ns : ℕ} {rs : List (Recording F)}
    (hsnapped : s.flush = .snapped ns rs) :
    Inv { s with flush := .pushed ns, pushes := s.pushes ++ [⟨rs, ns, s.now⟩] } := by
  obtain ⟨⟨hle, hnow⟩, -⟩ := h.flushSnapped ns rs hsnapped
  constructor
  · exact h.start_le
  · exact h.recorded
  · exact h.snapped
  · exact fun t ht => nomatch ht
  · exact fun t rs ht => nomatch ht
  · intro t ht
    rw [← Flush.pushed.inj ht]
    exact ⟨hle, _, List.mem_append_right _ List.mem_cons_self, rfl, hnow⟩
  · intro p hp
    rcases List.mem_append.1 hp with hp | hp
    · exact Or.inl (h.starts (by simp [hsnapped]) p hp)
    · rw [List.mem_singleton.1 hp]
      exact Or.inr rfl

/-- Every act keeps the invariant. -/
theorem step (h : s.Inv) (a : OtlpAct) : (s.step a).Inv := by
  cases a with
  | wait ns => exact h.wait ns
  | record =>
      rw [OtlpRun.step]
      cases s.todo with
      | nil => exact h
      | cons op ops =>
          have hrecorded : ∀ r ∈ s.recorded ++ [⟨op, s.now⟩], s.startNs ≤ r.atNs :=
            List.forall_mem_append.2 ⟨h.recorded, by simpa using h.start_le⟩
          exact { h with recorded := hrecorded }
  | snapshot =>
      rw [OtlpRun.step]
      cases s.snapped with
      | some rs => exact h
      | none =>
          have hsnapped : ∀ rs ∈ some s.recorded, ∀ r ∈ rs, s.startNs ≤ r.atNs := by
            intro rs hrs
            rw [← Option.mem_some_iff.1 hrs]
            exact h.recorded
          exact { h with snapped := hsnapped }
  | push =>
      rw [OtlpRun.step]
      cases s.snapped with
      | none => exact h
      | some rs => exact h.push rs
  | flushStart =>
      unfold OtlpRun.step
      dsimp only
      split
      · rename_i hwaiting
        exact h.flushStart hwaiting
      · exact h
  | flushSnapshot =>
      unfold OtlpRun.step
      dsimp only
      split
      · rename_i ns hstarted
        exact h.flushSnapshot hstarted
      · exact h
  | flushPush =>
      unfold OtlpRun.step
      dsimp only
      split
      · rename_i ns rs hsnapped
        exact h.flushPush hsnapped
      · exact h

end Inv

/-! ## One start time -/

section OneStart

variable [F64 F] {s : OtlpRun F}

/-- A push of the exporter's thread. -/
theorem oneStart_push (h : s.Inv) {rs : List (Recording F)} (hrs : s.snapped = some rs) :
    OneStart (s.pushes ++ [⟨rs, s.startNs, s.now⟩])
      ↔ OneStart s.pushes ∧ ∀ ns, s.flush = .pushed ns → ns = s.startNs := by
  rw [oneStart_concat]
  constructor
  · rintro ⟨hpushes, hcontinues, -⟩
    refine ⟨hpushes, ?_⟩
    intro ns hflush
    obtain ⟨hle, q, hq, rfl, htime⟩ := h.flushPushed ns hflush
    -- both bodies have the packets, and the flush's is younger than the exporter's start
    obtain ⟨n, hn⟩ := q.packets_mem_series
    obtain ⟨n', hn'⟩ := Push.packets_mem_series (⟨rs, s.startNs, s.now⟩ : Push F)
    rcases hcontinues q hq _ n n' hn hn' with hsame | ⟨hafter, -⟩
    · exact hsame
    · exact le_antisymm (htime.trans hafter) hle
  · rintro ⟨hpushes, hkeeps⟩
    refine ⟨hpushes, ?_, ?_⟩
    · intro q hq _ _ _ _ _
      rcases h.pushes q hq with hstart | hflush
      · exact Or.inl hstart
      · exact Or.inl (hkeeps q.startNs hflush)
    · intro _ _ _ r hr _
      exact h.snapped rs hrs r hr

/-- The push of the flush. -/
theorem oneStart_flush (h : s.Inv) {ns : ℕ} {rs : List (Recording F)}
    (hflush : s.flush = .snapped ns rs) :
    OneStart (s.pushes ++ [⟨rs, ns, s.now⟩])
      ↔ OneStart s.pushes ∧ (ns = s.startNs ∨ ((∀ r ∈ rs, r.op.isCounted → ns ≤ r.atNs) ∧
        ∀ p ∈ s.pushes, p.timeNs ≤ ns)) := by
  have hstarts := h.starts (by simp [hflush])
  obtain ⟨-, hrs⟩ := h.flushSnapped ns rs hflush
  rw [oneStart_concat]
  constructor
  · rintro ⟨hpushes, hcontinues, hcounts⟩
    refine ⟨hpushes, ?_⟩
    by_cases hns : ns = s.startNs
    · exact Or.inl hns
    · -- with a start of its own the flush may announce nothing older than that
      refine Or.inr ⟨?_, ?_⟩
      · rintro r hr ⟨series, hseries⟩
        obtain ⟨n, hn⟩ := Registry.exists_otlpSeries (List.mem_map_of_mem hr) hseries
        exact hcounts series n hn r hr hseries
      · intro q hq
        obtain ⟨n, hn⟩ := q.packets_mem_series
        obtain ⟨n', hn'⟩ := Push.packets_mem_series (⟨rs, ns, s.now⟩ : Push F)
        rcases hcontinues q hq _ n n' hn hn' with hsame | ⟨hafter, -⟩
        · exact absurd (hsame.symm.trans (hstarts q hq)) hns
        · exact hafter
  · rintro ⟨hpushes, rfl | ⟨hcounted, htimes⟩⟩
    · refine ⟨hpushes, fun q hq _ _ _ _ _ => Or.inl (hstarts q hq), ?_⟩
      intro _ _ _ r hr _
      exact hrs r hr
    · have hsince : ∀ r ∈ rs, ∀ series, r.op.countsIn series = true → ns ≤ r.atNs :=
        fun r hr series hseries => hcounted r hr ⟨series, hseries⟩
      refine ⟨hpushes, ?_, ?_⟩
      · intro q hq series n n' _ hn'
        exact Or.inr ⟨htimes q hq, Push.eq_countSince hn' fun r hr => hsince r hr series⟩
      · intro series _ _ r hr
        exact hsince r hr series

/-- **One step**: the bodies keep one start time exactly if they did before and the step does. -/
theorem oneStart_step (h : s.Inv) (a : OtlpAct) :
    OneStart (s.step a).pushes ↔ OneStart s.pushes ∧ s.KeepsStart a := by
  cases a with
  | wait ns => exact (and_iff_left trivial).symm
  | record =>
      rw [OtlpRun.step]
      cases s.todo <;> exact (and_iff_left trivial).symm
  | snapshot =>
      rw [OtlpRun.step]
      cases s.snapped <;> exact (and_iff_left trivial).symm
  | push =>
      rw [OtlpRun.step, KeepsStart]
      cases hrs : s.snapped with
      | none => exact (and_iff_left trivial).symm
      | some rs =>
          refine (oneStart_push h hrs).trans (and_congr_right fun _ => ?_)
          cases s.flush <;> simp
  | flushStart =>
      unfold OtlpRun.step
      dsimp only
      split <;> exact (and_iff_left trivial).symm
  | flushSnapshot =>
      unfold OtlpRun.step
      dsimp only
      split <;> exact (and_iff_left trivial).symm
  | flushPush =>
      rw [OtlpRun.step, KeepsStart]
      cases hflush : s.flush with
      | snapped ns rs => exact oneStart_flush h hflush
      | waiting => exact (and_iff_left trivial).symm
      | started ns => exact (and_iff_left trivial).symm
      | pushed ns => exact (and_iff_left trivial).symm

/-- So does every run. -/
theorem inv_after [ToString ε] (s : Setup F ε) (startNs : ℕ) (acts : List OtlpAct) :
    (machine.after (init s startNs) acts).Inv :=
  machine.after_invariant (inv_init s startNs) fun e _ h => h.step e.input

/-- **The bodies of a run keep one start time exactly if each of its steps does.** -/
theorem oneStart_iff [ToString ε] (s : Setup F ε) (startNs : ℕ) (acts : List OtlpAct) :
    OneStart (machine.after (init s startNs) acts).pushes
      ↔ ∀ e ∈ machine.log (init s startNs) acts, e.state.KeepsStart e.input := by
  refine machine.iff_forall_log
    (P := fun acts => OneStart (machine.after (init s startNs) acts).pushes)
    ⟨List.Pairwise.nil, List.forall_mem_nil _⟩ ?_ acts
  intro acts a
  rw [Machine.after_concat]
  exact oneStart_step (inv_after s startNs acts) a

/-- One packet, replayed from a file; the clock moves on before the flush. -/
theorem flush_starts_late :
    let syn := Sample.tcp 5 (Sample.ep 1 5002) (Sample.ep 2 80) TcpFlags.SYN 100 0 64240 0
    let cap : Capture String := ⟨[syn], none⟩
    let s : Setup ℚ String := ⟨⟨none, true⟩, DetectConfig.default ℚ, .stdout, cap⟩
    ¬ OneStart (machine.after (init s 0)
      [.record, .record, .wait 1, .flushStart, .flushSnapshot, .flushPush]).pushes := by
  intro syn cap s h
  have hcounts : s.agent.registryOps.map (RegistryOp.countsIn .packets) = [true, false] := by
    decide +kernel
  obtain ⟨packet, ops, hops, hpacket, hrest⟩ := List.map_eq_cons_iff.1 hcounts
  obtain ⟨gauges, ops', rfl, -, hnil⟩ := List.map_eq_cons_iff.1 hrest
  rw [List.map_eq_nil_iff.1 hnil] at hops
  have hpushes : (machine.after (init s 0)
      [.record, .record, .wait 1, .flushStart, .flushSnapshot, .flushPush]).pushes
        = [⟨[⟨packet, 0⟩, ⟨gauges, 0⟩], 1, 1⟩] := by
    simp [machine, step, init, hops]
  rw [hpushes] at h
  obtain ⟨n, hn⟩ := Push.packets_mem_series (⟨[⟨packet, 0⟩, ⟨gauges, 0⟩], 1, 1⟩ : Push ℚ)
  have hstart := h.recordings _ List.mem_cons_self _ n hn ⟨packet, 0⟩ List.mem_cons_self hpacket
  exact absurd hstart (Nat.not_succ_le_zero 0)

end OneStart

end OtlpRun
