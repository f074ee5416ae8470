/-
# The rolling rate and the log of recorded events

`RollingRate` keeps one counter per second of its window and overwrites it when the
second comes round again.  `RollingRate.Tracks` relates it to the list of all times
ever recorded; for times recorded in order it is kept by every record
(`tracks_record`), and `countWindow` then counts the recorded times that fall in the
window (`countWindow_eq`).  Times recorded in any order may overwrite a newer second, but a
counter never exceeds what was recorded in its second (`RollingRate.Bounded`).
-/
import L4Scope.Window
import Mathlib.Algebra.BigOperators.Group.List.Basic
import Mathlib.Algebra.Order.BigOperators.Group.List
import Mathlib.Data.Nat.ModEq

/-! ## Counting by class -/

/-- A count splits into the counts of two exclusive cases. -/
theorem countP_eq_add {α : Type} {p q r : α → Bool} {l : List α}
    (hor : ∀ a ∈ l, p a = (q a || r a)) (hand : ∀ a ∈ l, (q a && r a) = false) :
    l.countP p = l.countP q + l.countP r := by
  induction l with
  | nil => rfl
  | cons a l ih =>
      have hl := ih (fun b hb => hor b (List.mem_cons_of_mem _ hb))
        fun b hb => hand b (List.mem_cons_of_mem _ hb)
      have hor_a := hor a List.mem_cons_self
      have hand_a := hand a List.mem_cons_self
      rw [List.countP_cons, List.countP_cons, List.countP_cons, hl, hor_a]
      cases hq : q a <;> cases hr : r a
      · rfl
      · simp only [Bool.false_or, if_true, Bool.false_eq_true, if_false]
        omega
      · simp only [Bool.or_false, if_true, Bool.false_eq_true, if_false]
        omega
      · rw [hq, hr] at hand_a
        cases hand_a

/-- A list whose elements fall in the classes `0, …, n - 1` is counted class by class. -/
theorem sum_countP_classes {α : Type} (p : α → Bool) (cls : α → ℕ) (l : List α) (n : ℕ) :
    ((List.range n).map fun i => l.countP fun a => p a && cls a == i).sum
      = l.countP fun a => p a && decide (cls a < n) := by
  induction n with
  | zero => simp
  | succ n ih =>
      have hsplit : (l.countP fun a => p a && decide (cls a < n + 1))
          = (l.countP fun a => p a && decide (cls a < n))
            + l.countP fun a => p a && cls a == n := by
        apply countP_eq_add
        · intro a _
          cases p a
          · rfl
          · rw [Bool.eq_iff_iff]
            simp
            omega
        · intro a _
          cases p a
          · rfl
          · rw [Bool.eq_false_iff]
            simp
            omega
      rw [List.sum_range_succ, ih, hsplit]

namespace RollingRate

/-! ## One record -/

/-- The second of a time. -/
def second (ns : ℕ) : ℕ := ns / NS_PER_SEC

/-- The second that slot `i` currently represents. -/
def epochAt (r : RollingRate) (i : ℕ) : ℕ := r.epoch.getD i 0

/-- A bucket of the ring. -/
def bucketAt (r : RollingRate) (i : ℕ) : ℕ := r.buckets.getD i 0

/-- The slot of a time. -/
def slot (r : RollingRate) (ns : ℕ) : ℕ := second ns % r.windowSecs

/-- A slot is in the ring. -/
theorem slot_lt (r : RollingRate) (ns : ℕ) : r.slot ns < r.windowSecs :=
  Nat.mod_lt _ r.window_pos

/-- Recording claims a slot for its second. -/
theorem epochAt_record (r : RollingRate) (ns i : ℕ) :
    (r.record ns).epochAt i = if i = r.slot ns then second ns else r.epochAt i := by
  have hlt : r.slot ns < r.epoch.length := r.length_epoch.symm ▸ r.slot_lt ns
  have hepoch : (r.record ns).epoch
      = if r.epochAt (r.slot ns) ≠ second ns then r.epoch.set (r.slot ns) (second ns)
        else r.epoch := rfl
  rw [epochAt, hepoch]
  by_cases hfresh : r.epochAt (r.slot ns) ≠ second ns
  · rw [if_pos hfresh, List.getD_eq_getElem?_getD, List.getElem?_set]
    by_cases hi : i = r.slot ns
    · rw [if_pos hi, if_pos hi.symm, if_pos hlt, Option.getD_some]
    · rw [if_neg hi, if_neg (Ne.symm hi), ← List.getD_eq_getElem?_getD]
      rfl
  · rw [if_neg hfresh]
    split_ifs with hi
    · rw [hi]
      exact not_not.1 hfresh
    · rfl

/-- It counts there, from zero if the slot was another second's. -/
theorem bucketAt_record (r : RollingRate) (ns i : ℕ) :
    (r.record ns).bucketAt i
      = if i = r.slot ns then (if r.epochAt i = second ns then r.bucketAt i else 0) + 1
        else r.bucketAt i := by
  have hlt : r.slot ns < r.buckets.length := r.length_buckets.symm ▸ r.slot_lt ns
  have hbuckets : (r.record ns).buckets
      = r.buckets.set (r.slot ns)
        ((if r.epochAt (r.slot ns) ≠ second ns then 0 else r.bucketAt (r.slot ns)) + 1) := rfl
  rw [bucketAt, hbuckets, List.getD_eq_getElem?_getD, List.getElem?_set]
  by_cases hi : i = r.slot ns
  · rw [if_pos hi, if_pos hi.symm, if_pos hlt, Option.getD_some, hi, ite_not]
  · rw [if_neg hi, if_neg (Ne.symm hi), ← List.getD_eq_getElem?_getD]
    rfl

/-! ## Times recorded in order -/

/-- What the slots say about the list of all recorded times. -/
structure Tracks (r : RollingRate) (times : List ℕ) : Prop where
  /-- A slot in use represents a second that belongs to it … -/
  epoch_slot : ∀ i < r.windowSecs, r.epochAt i ≠ U64_MAX → r.epochAt i % r.windowSecs = i
  /-- … and counts the times in that second. -/
  bucket : ∀ i < r.windowSecs, r.epochAt i ≠ U64_MAX →
    r.bucketAt i = times.countP fun t => second t == r.epochAt i
  /-- The slot of a recorded time represents the second of some recorded time that is no
  earlier and falls in the same slot. -/
  newest : ∀ t ∈ times, ∃ t' ∈ times,
    second t' = r.epochAt (r.slot t) ∧ second t ≤ second t' ∧ r.slot t' = r.slot t

/-- No slot is claimed at the start. -/
theorem epochAt_new (w i : ℕ) (hi : i < max w 1) : (new w).epochAt i = U64_MAX := by
  show (List.replicate (max w 1) U64_MAX).getD i 0 = U64_MAX
  rw [List.getD_eq_getElem?_getD, List.getElem?_replicate, if_pos hi, Option.getD_some]

/-- An empty ring, and an empty log. -/
theorem tracks_new (w : ℕ) : (new w).Tracks [] where
  epoch_slot i hi hne := absurd (epochAt_new w i hi) hne
  bucket i hi hne := absurd (epochAt_new w i hi) hne
  newest := nofun

/-- Recording a time no earlier than the others. -/
theorem tracks_record {r : RollingRate} {times : List ℕ} (h : r.Tracks times) {ns : ℕ}
    (hlast : ∀ t ∈ times, second t ≤ second ns) : (r.record ns).Tracks (times ++ [ns]) where
  epoch_slot i hi hne := by
    rw [epochAt_record] at hne ⊢
    split_ifs at hne ⊢ with hslot
    · exact hslot.symm
    · exact h.epoch_slot i hi hne
  bucket i hi hne := by
    rw [epochAt_record] at hne ⊢
    rw [bucketAt_record, List.countP_append]
    by_cases hslot : i = r.slot ns
    · rw [if_pos hslot] at hne ⊢
      rw [if_pos hslot, List.countP_singleton, if_pos (beq_self_eq_true _)]
      congr 1
      by_cases hsame : r.epochAt i = second ns
      · rw [if_pos hsame, h.bucket i hi (hsame ▸ hne), hsame]
      · -- the slot is overwritten: no earlier time falls in the new second
        rw [if_neg hsame]
        symm
        rw [List.countP_eq_zero]
        intro t ht heq
        have heq : second t = second ns := by simpa using heq
        obtain ⟨t', ht', hepoch, hle, -⟩ := h.newest t ht
        have hsl : r.slot t = i := by rw [hslot, slot, slot, heq]
        rw [hsl] at hepoch
        have := hlast t' ht'
        omega
    · rw [if_neg hslot] at hne ⊢
      rw [if_neg hslot, h.bucket i hi hne, List.countP_singleton]
      have hother : second ns ≠ r.epochAt i := by
        intro heq
        exact hslot (by rw [slot, heq, h.epoch_slot i hi hne])
      rw [if_neg (by simpa using hother)]
      rfl
  newest t ht := by
    have hslot : ∀ t, (r.record ns).slot t = r.slot t := fun _ => rfl
    simp only [hslot, epochAt_record]
    rcases List.mem_append.1 ht with ht | ht
    · by_cases hsame : r.slot t = r.slot ns
      · refine ⟨ns, by simp, ?_, hlast t ht, hsame.symm⟩
        rw [if_pos hsame]
      · obtain ⟨t', ht', hrest⟩ := h.newest t ht
        refine ⟨t', List.mem_append_left _ ht', ?_⟩
        rw [if_neg hsame]
        exact hrest
    · obtain rfl := List.mem_singleton.1 ht
      refine ⟨t, by simp, ?_, Nat.le_refl _, rfl⟩
      rw [if_pos rfl]

/-- Recording times whose seconds come in order. -/
theorem tracks_foldl_of_seconds (w : ℕ) {times : List ℕ}
    (hsorted : times.Pairwise fun t t' => second t ≤ second t') :
    (times.foldl record (new w)).Tracks times := by
  induction times using List.reverseRecOn with
  | nil => exact tracks_new w
  | append_singleton times t ih =>
      rw [List.pairwise_append] at hsorted
      obtain ⟨hsorted, -, hlast⟩ := hsorted
      rw [List.foldl_append]
      exact tracks_record (ih hsorted) fun t' ht' => hlast t' ht' t (by simp)

/-- Recording times in order. -/
theorem tracks_foldl_record (w : ℕ) {times : List ℕ} (hsorted : times.Pairwise (· ≤ ·)) :
    (times.foldl record (new w)).Tracks times :=
  tracks_foldl_of_seconds w (hsorted.imp fun hle => Nat.div_le_div_right hle)

/-- Recording keeps the window. -/
theorem windowSecs_foldl_record (r : RollingRate) (times : List ℕ) :
    (times.foldl record r).windowSecs = r.windowSecs := by
  induction times generalizing r with
  | nil => rfl
  | cons t times ih => exact ih (r.record t)

/-! ## Times recorded in any order -/

/-- What the slots say about the list of all recorded times, whatever their order. -/
structure Bounded (r : RollingRate) (times : List ℕ) : Prop where
  epoch_slot : ∀ i < r.windowSecs, r.epochAt i ≠ U64_MAX → r.epochAt i % r.windowSecs = i
  bucket_le : ∀ i < r.windowSecs, r.epochAt i ≠ U64_MAX →
    r.bucketAt i ≤ times.countP fun t => second t == r.epochAt i

/-- An empty ring counts nothing. -/
theorem bounded_new (w : ℕ) : (new w).Bounded [] where
  epoch_slot i hi hne := absurd (epochAt_new w i hi) hne
  bucket_le i hi hne := absurd (epochAt_new w i hi) hne

/-- One more record. -/
theorem bounded_record {r : RollingRate} {times : List ℕ} (h : r.Bounded times) (ns : ℕ) :
    (r.record ns).Bounded (times ++ [ns]) where
  epoch_slot i hi hne := by
    rw [epochAt_record] at hne ⊢
    split_ifs at hne ⊢ with hslot
    · exact hslot.symm
    · exact h.epoch_slot i hi hne
  bucket_le i hi hne := by
    rw [epochAt_record] at hne ⊢
    rw [bucketAt_record, List.countP_append]
    by_cases hslot : i = r.slot ns
    · rw [if_pos hslot] at hne ⊢
      rw [if_pos hslot, List.countP_singleton, if_pos (beq_self_eq_true _)]
      by_cases hsame : r.epochAt i = second ns
      · have hle := h.bucket_le i hi (hsame ▸ hne)
        rw [if_pos hsame]
        rw [hsame] at hle
        omega
      · -- what the slot counted before is forgotten
        rw [if_neg hsame]
        omega
    · rw [if_neg hslot] at hne ⊢
      rw [if_neg hslot]
      exact Nat.le_add_right_of_le (h.bucket_le i hi hne)

/-- A ring counts no more than was recorded. -/
theorem bounded_foldl_record (w : ℕ) (times : List ℕ) :
    (times.foldl record (new w)).Bounded times := by
  induction times using List.reverseRecOn with
  | nil => exact bounded_new w
  | append_singleton times t ih =>
      rw [List.foldl_append]
      exact bounded_record ih t

/-! ## The count of the window -/

/-- The second `sec` is counted in the window of `w` seconds that ends at `now`. -/
def inWindow (w now sec : ℕ) : Bool :=
  sec ≠ U64_MAX && second now - (w - 1) ≤ sec && sec ≤ second now

/-- The window is a sum over the slots. -/
theorem countWindow_eq_sum (r : RollingRate) (now : ℕ) :
    r.countWindow now = ((List.range r.windowSecs).map fun i =>
      if inWindow r.windowSecs now (r.epochAt i) then r.bucketAt i else 0).sum := by
  have hfold : ∀ (l : List ℕ) (n : ℕ), (l.foldl (fun total i =>
      if r.epochAt i ≠ U64_MAX ∧ second now - (r.windowSecs - 1) ≤ r.epochAt i
          ∧ r.epochAt i ≤ second now then total + r.bucketAt i else total) n)
      = n + (l.map fun i =>
        if inWindow r.windowSecs now (r.epochAt i) then r.bucketAt i else 0).sum := by
    intro l
    induction l with
    | nil => intro n; rfl
    | cons i l ih =>
        intro n
        have hiff : (inWindow r.windowSecs now (r.epochAt i) = true)
            ↔ r.epochAt i ≠ U64_MAX ∧ second now - (r.windowSecs - 1) ≤ r.epochAt i
              ∧ r.epochAt i ≤ second now := by
          simp only [inWindow, Bool.and_eq_true, decide_eq_true_eq, and_assoc]
        rw [List.foldl_cons, ih, List.map_cons, List.sum_cons]
        simp only [hiff]
        split_ifs <;> omega
  have hcount := hfold (List.range r.buckets.length) 0
  rw [Nat.zero_add, r.length_buckets] at hcount
  rw [countWindow, r.length_buckets]
  exact hcount

/-- A time of the window that falls in slot `i` is in the second the slot represents. -/
theorem Tracks.second_of_inWindow {r : RollingRate} {times : List ℕ} (h : r.Tracks times)
    {now : ℕ} (hnow : ∀ t ∈ times, second t ≤ second now) {t : ℕ} (ht : t ∈ times)
    (hin : inWindow r.windowSecs now (second t) = true) : second t = r.epochAt (r.slot t) := by
  obtain ⟨t', ht', hepoch, hle, hmod⟩ := h.newest t ht
  have hlt' := hnow t' ht'
  simp only [inWindow, Bool.and_eq_true, decide_eq_true_eq] at hin
  -- the newest second of the slot is congruent to this one and less than a window later
  have hmod' : second t' % r.windowSecs = second t % r.windowSecs := hmod
  have hdvd := (Nat.modEq_iff_dvd' hle).1 hmod'.symm
  have hsmall : second t' - second t < r.windowSecs := by
    have hpos := r.window_pos
    omega
  have hzero := Nat.eq_zero_of_dvd_of_lt hdvd hsmall
  rw [← hepoch]
  omega

/-- What a slot adds to the count is the number of the recorded times of the window that
fall in it. -/
theorem Tracks.count_slot {r : RollingRate} {times : List ℕ} (h : r.Tracks times) {now : ℕ}
    (hnow : ∀ t ∈ times, second t ≤ second now) {i : ℕ} (hi : i < r.windowSecs) :
    (if inWindow r.windowSecs now (r.epochAt i) then r.bucketAt i else 0)
      = times.countP fun t => inWindow r.windowSecs now (second t) && r.slot t == i := by
  split_ifs with hin
  · have hne : r.epochAt i ≠ U64_MAX := by
      simp only [inWindow, Bool.and_eq_true, decide_eq_true_eq] at hin
      exact hin.1.1
    rw [h.bucket i hi hne]
    apply List.countP_congr
    intro t ht
    simp only [beq_iff_eq, Bool.and_eq_true]
    constructor
    · intro heq
      refine ⟨heq ▸ hin, ?_⟩
      rw [slot, heq, h.epoch_slot i hi hne]
    · rintro ⟨hin', rfl⟩
      exact h.second_of_inWindow hnow ht hin'
  · symm
    rw [List.countP_eq_zero]
    intro t ht hboth
    simp only [beq_iff_eq, Bool.and_eq_true] at hboth
    obtain ⟨hin', rfl⟩ := hboth
    rw [h.second_of_inWindow hnow ht hin'] at hin'
    exact hin hin'

/-- **The rate is the log.**  If the slots track the recorded times and none of these
lies after the second of `now`, `countWindow` counts the times in the window. -/
theorem countWindow_eq {r : RollingRate} {times : List ℕ} (h : r.Tracks times) {now : ℕ}
    (hnow : ∀ t ∈ times, second t ≤ second now) :
    r.countWindow now = times.countP fun t => inWindow r.windowSecs now (second t) := by
  rw [countWindow_eq_sum,
    List.map_congr_left fun i hi => h.count_slot hnow (List.mem_range.1 hi), sum_countP_classes]
  apply List.countP_congr
  intro t _
  simp [r.slot_lt t]

/-- A slot never counts more than the recorded times of the window that fall in it. -/
theorem Bounded.slot_le {r : RollingRate} {times : List ℕ} (h : r.Bounded times) (now : ℕ) {i : ℕ}
    (hi : i < r.windowSecs) :
    (if inWindow r.windowSecs now (r.epochAt i) then r.bucketAt i else 0)
      ≤ times.countP fun t => inWindow r.windowSecs now (second t) && r.slot t == i := by
  split_ifs with hin
  · have hne : r.epochAt i ≠ U64_MAX := by
      simp only [inWindow, Bool.and_eq_true, decide_eq_true_eq] at hin
      exact hin.1.1
    refine (h.bucket_le i hi hne).trans (List.countP_mono_left fun t _ heq => ?_)
    have heq : second t = r.epochAt i := by simpa using heq
    rw [Bool.and_eq_true, beq_iff_eq, heq]
    exact ⟨hin, by rw [slot, heq, h.epoch_slot i hi hne]⟩
  · exact Nat.zero_le _

/-- The window counts no more than was recorded in it. -/
theorem countWindow_le {r : RollingRate} {times : List ℕ} (h : r.Bounded times) (now : ℕ) :
    r.countWindow now ≤ times.countP fun t => inWindow r.windowSecs now (second t) := by
  rw [countWindow_eq_sum]
  calc ((List.range r.windowSecs).map fun i =>
        if inWindow r.windowSecs now (r.epochAt i) then r.bucketAt i else 0).sum
      ≤ ((List.range r.windowSecs).map fun i =>
        times.countP fun t => inWindow r.windowSecs now (second t) && r.slot t == i).sum :=
        List.sum_le_sum fun i hi => h.slot_le now (List.mem_range.1 hi)
    _ = times.countP fun t => inWindow r.windowSecs now (second t) := by
        rw [sum_countP_classes]
        apply List.countP_congr
        intro t _
        simp [r.slot_lt t]

/-! ## The naive log -/

/-- The recorded times that lie in the window of `w` seconds that ends at `now`. -/
def logCount (w : ℕ) (times : List ℕ) (now : ℕ) : ℕ :=
  times.countP fun t => second now - (w - 1) ≤ second t ∧ second t ≤ second now

/-- The second that marks an unused slot lies beyond every 64-bit time. -/
theorem inWindow_iff {w now sec : ℕ} (hnow : now < 2 ^ 64) :
    inWindow w now sec = true ↔ second now - (w - 1) ≤ sec ∧ sec ≤ second now := by
  have hlt : second now < U64_MAX := by
    rw [second, NS_PER_SEC, U64_MAX]
    omega
  simp only [inWindow, Bool.and_eq_true, decide_eq_true_eq]
  constructor
  · rintro ⟨⟨-, hlo⟩, hhi⟩
    exact ⟨hlo, hhi⟩
  · rintro ⟨hlo, hhi⟩
    exact ⟨⟨by omega, hlo⟩, hhi⟩

/-- **The ring refines the log.**  After records in any order a count never exceeds the log's;
if the seconds of the records do not decrease and the last of them is not after the query, it is
the log's. -/
theorem countWindow_log {w : ℕ} (hw : 1 ≤ w) (times : List ℕ) {now : ℕ} (hnow : now < 2 ^ 64) :
    (times.foldl record (new w)).countWindow now ≤ logCount w times now ∧
    ((times.Pairwise fun t t' => second t ≤ second t') →
      (∀ t ∈ times.getLast?, second t ≤ second now) →
      (times.foldl record (new w)).countWindow now = logCount w times now) := by
  have hsecs : (times.foldl record (new w)).windowSecs = w :=
    (windowSecs_foldl_record _ _).trans (Nat.max_eq_left hw)
  have hlog : (times.countP fun t => inWindow w now (second t)) = logCount w times now := by
    apply List.countP_congr
    intro t _
    rw [inWindow_iff hnow, decide_eq_true_eq]
  constructor
  · have hle := countWindow_le (bounded_foldl_record w times) now
    rwa [hsecs, hlog] at hle
  · intro hsorted hlast
    -- none is later than the last, and that one is not after the query
    have hall : ∀ t ∈ times, second t ≤ second now := by
      intro t ht
      induction times using List.reverseRecOn with
      | nil => cases ht
      | append_singleton times last _ =>
          have hend := hlast last (by simp)
          rcases List.mem_append.1 ht with hold | hnew
          · rw [List.pairwise_append] at hsorted
            exact (hsorted.2.2 t hold last (by simp)).trans hend
          · rw [List.mem_singleton] at hnew
            rwa [hnew]
    have heq := countWindow_eq (tracks_foldl_of_seconds w hsorted) hall
    rwa [hsecs, hlog] at heq

/-- A window of three seconds, a gap longer than it, and a slot that is used again. -/
theorem countWindow_log_gap :
    (([1, 2, 6, 7, 7].map (· * NS_PER_SEC)).foldl record (new 3)).countWindow (8 * NS_PER_SEC)
      = logCount 3 ([1, 2, 6, 7, 7].map (· * NS_PER_SEC)) (8 * NS_PER_SEC) :=
  (countWindow_log (by decide) _ (by decide)).2 (by decide) (by decide)

end RollingRate
