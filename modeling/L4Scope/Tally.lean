/-
# Tallies

A tally counts how often each key was seen.  It is an ordered map of counters that only ever
adds one to a counter: the keys with their counts, in strictly ascending order of the keys.

`Tally.of l` is the tally of a list.  Everything one reads off a tally is a count over that
list: `mem_entries_of` and `totalWhere_of`.
-/
import Mathlib.Algebra.GroupWithZero.Nat
import Mathlib.Data.List.Count
import Mathlib.Data.List.Induction
import Mathlib.Order.Lattice

variable {κ : Type} [LinearOrder κ]

/-! ## Adding one -/

/-- The entries after `*entry(k).or_insert(0) += 1`. -/
def bumpEntries (k : κ) : List (κ × ℕ) → List (κ × ℕ)
  | [] => [(k, 1)]
  | (j, n) :: rest =>
    if k < j then (k, 1) :: (j, n) :: rest
    else if k = j then (j, n + 1) :: rest
    else (j, n) :: bumpEntries k rest

/-- Bumping adds no key but its own. -/
theorem fst_of_mem_bumpEntries {k : κ} {l : List (κ × ℕ)} {e : κ × ℕ}
    (h : e ∈ bumpEntries k l) : e.1 = k ∨ ∃ e' ∈ l, e.1 = e'.1 := by
  induction l with
  | nil =>
      rw [bumpEntries, List.mem_singleton] at h
      rw [h]
      exact Or.inl rfl
  | cons head rest ih =>
      obtain ⟨j, n⟩ := head
      rw [bumpEntries] at h
      split_ifs at h with hlt heq
      · rcases List.mem_cons.1 h with rfl | h
        · exact Or.inl rfl
        · exact Or.inr ⟨e, h, rfl⟩
      · rcases List.mem_cons.1 h with rfl | h
        · exact Or.inl heq.symm
        · exact Or.inr ⟨e, List.mem_cons_of_mem _ h, rfl⟩
      · rcases List.mem_cons.1 h with rfl | h
        · exact Or.inr ⟨(j, n), List.mem_cons_self, rfl⟩
        · rcases ih h with hk | ⟨e', he', hfst⟩
          · exact Or.inl hk
          · exact Or.inr ⟨e', List.mem_cons_of_mem _ he', hfst⟩

/-- It keeps the keys in order. -/
theorem sorted_bumpEntries (k : κ) {l : List (κ × ℕ)}
    (h : l.Pairwise fun a b => a.1 < b.1) :
    (bumpEntries k l).Pairwise fun a b => a.1 < b.1 := by
  induction l with
  | nil => exact List.pairwise_singleton _ _
  | cons head rest ih =>
      obtain ⟨j, n⟩ := head
      obtain ⟨hhead, hrest⟩ := List.pairwise_cons.1 h
      rw [bumpEntries]
      split_ifs with hlt heq
      · refine List.pairwise_cons.2 ⟨?_, h⟩
        intro e he
        rcases List.mem_cons.1 he with rfl | he
        · exact hlt
        · exact hlt.trans (hhead e he)
      · exact List.pairwise_cons.2 ⟨hhead, hrest⟩
      · refine List.pairwise_cons.2 ⟨?_, ih hrest⟩
        intro e he
        rcases fst_of_mem_bumpEntries he with hk | ⟨e', he', hfst⟩
        · show j < e.1
          rw [hk]
          exact lt_of_le_of_ne (not_lt.1 hlt) (Ne.symm heq)
        · show j < e.1
          rw [hfst]
          exact hhead e' he'

/-- The entries of a bumped tally: the others, and the bumped one. -/
theorem mem_bumpEntries {k j : κ} {n : ℕ} {l : List (κ × ℕ)}
    (h : l.Pairwise fun a b => a.1 < b.1) :
    (j, n) ∈ bumpEntries k l ↔ (j ≠ k ∧ (j, n) ∈ l) ∨
      (j = k ∧ ((∃ m, (k, m) ∈ l ∧ n = m + 1) ∨ ((∀ m, (k, m) ∉ l) ∧ n = 1))) := by
  induction l with
  | nil => simp [bumpEntries]
  | cons head rest ih =>
      obtain ⟨i, m⟩ := head
      obtain ⟨hhead, hrest⟩ := List.pairwise_cons.1 h
      have hnot : ∀ {a : κ}, a ≤ i → ∀ b, (a, b) ∉ rest := fun {a} ha b hb =>
        absurd (hhead _ hb) (not_lt.2 ha)
      rw [bumpEntries]
      split_ifs with hlt heq
      · -- a new entry in front: no entry of `k` was there
        have hne : k ≠ i := hlt.ne
        by_cases hj : j = k
        · subst hj
          simp [hne, hnot hlt.le]
        · simp [hj]
      · subst heq
        by_cases hj : j = k
        · subst hj
          simp [hnot le_rfl]
        · simp [hj]
      · rw [List.mem_cons, ih hrest]
        have hne : k ≠ i := heq
        by_cases hj : j = k
        · subst hj
          simp [hne]
        · simp [hj]

/-- A key before the first entry gets an entry of its own. -/
theorem bumpEntries_before {k j : κ} (h : k < j) (n : ℕ) (l : List (κ × ℕ)) :
    bumpEntries k ((j, n) :: l) = (k, 1) :: (j, n) :: l := by
  rw [bumpEntries, if_pos h]

/-- The entry of the key is counted up. -/
theorem bumpEntries_at (k : κ) (n : ℕ) (l : List (κ × ℕ)) :
    bumpEntries k ((k, n) :: l) = (k, n + 1) :: l := by
  rw [bumpEntries, if_neg (lt_irrefl k), if_pos rfl]

/-- An entry before the key stays. -/
theorem bumpEntries_behind {k j : κ} (h : j < k) (n : ℕ) (l : List (κ × ℕ)) :
    bumpEntries k ((j, n) :: l) = (j, n) :: bumpEntries k l := by
  rw [bumpEntries, if_neg h.not_gt, if_neg h.ne']

/-- Two keys may be bumped in either order. -/
theorem bumpEntries_comm (j k : κ) (l : List (κ × ℕ)) :
    bumpEntries j (bumpEntries k l) = bumpEntries k (bumpEntries j l) := by
  wlog hlt : j < k generalizing j k
  · rcases (not_lt.1 hlt).eq_or_lt with rfl | hgt
    · rfl
    · exact (this k j hgt).symm
  induction l with
  | nil =>
      have hj : bumpEntries j [] = [(j, 1)] := rfl
      have hk : bumpEntries k [] = [(k, 1)] := rfl
      rw [hj, hk, bumpEntries_before hlt, bumpEntries_behind hlt, hk]
  | cons e l ih =>
      obtain ⟨i, n⟩ := e
      rcases lt_trichotomy k i with hk | rfl | hk
      · rw [bumpEntries_before hk, bumpEntries_before hlt, bumpEntries_before (hlt.trans hk),
          bumpEntries_behind hlt, bumpEntries_before hk]
      · rw [bumpEntries_at, bumpEntries_before hlt, bumpEntries_before hlt,
          bumpEntries_behind hlt, bumpEntries_at]
      · rcases lt_trichotomy j i with hj | rfl | hj
        · rw [bumpEntries_behind hk, bumpEntries_before hj, bumpEntries_before hj,
            bumpEntries_behind hlt, bumpEntries_behind hk]
        · rw [bumpEntries_behind hk, bumpEntries_at, bumpEntries_at, bumpEntries_behind hk]
        · rw [bumpEntries_behind hk, bumpEntries_behind hj, bumpEntries_behind hj,
            bumpEntries_behind hk, ih]

/-! ## Tallies -/

/-- Counts by key, with the keys in order. -/
structure Tally (κ : Type) [LinearOrder κ] where
  entries : List (κ × ℕ)
  sorted : entries.Pairwise fun a b => a.1 < b.1

namespace Tally

/-- No counts. -/
def empty : Tally κ := ⟨[], List.Pairwise.nil⟩

instance : EmptyCollection (Tally κ) := ⟨empty⟩

@[simp] theorem entries_empty : (∅ : Tally κ).entries = [] := rfl

/-- `*entry(k).or_insert(0) += 1`. -/
def bump (t : Tally κ) (k : κ) : Tally κ := ⟨bumpEntries k t.entries, sorted_bumpEntries k t.sorted⟩

/-- The order in which keys are counted does not matter. -/
theorem bump_comm (t : Tally κ) (j k : κ) : (t.bump j).bump k = (t.bump k).bump j := by
  have h := bumpEntries_comm k j t.entries
  simp only [bump, h]

/-- The sum of the counts of the keys that satisfy `p`. -/
def totalWhere (p : κ → Bool) (t : Tally κ) : ℕ :=
  ((t.entries.filter fun e => p e.1).map Prod.snd).sum

/-- The sum of all counts. -/
def total (t : Tally κ) : ℕ := (t.entries.map Prod.snd).sum

/-- The total is that over all keys. -/
theorem total_eq_totalWhere (t : Tally κ) : t.total = t.totalWhere fun _ => true := by
  rw [total, totalWhere, List.filter_eq_self.2 fun _ _ => rfl]

/-- Bumping counts one. -/
theorem totalWhere_bump (p : κ → Bool) (t : Tally κ) (k : κ) :
    (t.bump k).totalWhere p = t.totalWhere p + if p k then 1 else 0 := by
  obtain ⟨l, hl⟩ := t
  show (((bumpEntries k l).filter fun e => p e.1).map Prod.snd).sum
    = ((l.filter fun e => p e.1).map Prod.snd).sum + if p k then 1 else 0
  have hcons : ∀ (e : κ × ℕ) (rest : List (κ × ℕ)),
      (((e :: rest).filter fun e => p e.1).map Prod.snd).sum
        = (if p e.1 then e.2 else 0) + ((rest.filter fun e => p e.1).map Prod.snd).sum := by
    intro e rest
    rw [List.filter_cons]
    split_ifs <;> simp
  clear hl
  induction l with
  | nil =>
      rw [bumpEntries, hcons]
      simp
  | cons head rest ih =>
      obtain ⟨j, n⟩ := head
      rcases lt_trichotomy k j with hlt | heq | hgt
      · rw [bumpEntries_before hlt, hcons, Nat.add_comm]
      · rw [heq, bumpEntries_at, hcons, hcons]
        dsimp only
        split_ifs <;> omega
      · rw [bumpEntries_behind hgt, hcons, hcons, ih, Nat.add_assoc]

/-! ## The tally of a list -/

/-- How often each element occurs in a list. -/
def of (l : List κ) : Tally κ := l.foldl bump ∅

/-- One more key. -/
theorem of_concat (l : List κ) (k : κ) : of (l ++ [k]) = (of l).bump k := by
  rw [of, List.foldl_append]
  rfl

/-- One more element, if there is one. -/
theorem of_append_toList (l : List κ) (o : Option κ) :
    of (l ++ o.toList) = match o with
      | some k => (of l).bump k
      | none => of l := by
  cases o with
  | none => rw [Option.toList_none, List.append_nil]
  | some k => exact of_concat l k

/-- A tally counts the keys with a property. -/
theorem totalWhere_of (p : κ → Bool) (l : List κ) : (of l).totalWhere p = l.countP p := by
  induction l using List.reverseRecOn with
  | nil => rfl
  | append_singleton l k ih =>
      rw [of_concat, totalWhere_bump, ih, List.countP_append, List.countP_singleton]

/-- It counts all keys. -/
theorem total_of (l : List κ) : (of l).total = l.length := by
  rw [total_eq_totalWhere, totalWhere_of, List.countP_true]

/-- The entries are the elements with their number of occurrences. -/
theorem mem_entries_of {l : List κ} {k : κ} {n : ℕ} :
    (k, n) ∈ (of l).entries ↔ k ∈ l ∧ n = l.count k := by
  induction l using List.reverseRecOn generalizing n with
  | nil => simp [of]
  | append_singleton l j ih =>
      have hbump : (of (l ++ [j])).entries = bumpEntries j (of l).entries := by
        rw [of_concat]
        rfl
      rw [hbump, mem_bumpEntries (of l).sorted]
      by_cases hk : k = j
      · subst hk
        simp only [ne_eq, not_true_eq_false, false_and, true_and, false_or, ih,
          List.mem_append, List.mem_singleton, or_true, List.count_append, List.count_singleton_self]
        by_cases hmem : k ∈ l
        · simp [hmem]
        · simp [hmem, List.count_eq_zero_of_not_mem hmem]
      · have hcount : List.count k [j] = 0 := List.count_eq_zero_of_not_mem (by simpa using hk)
        simp [hk, ih, List.count_append, hcount]

/-- The entries of what a list of operations makes of the keys. -/
theorem mem_entries_filterMap {α : Type} {f : α → Option κ} {l : List α} {k : κ} {n : ℕ} :
    (k, n) ∈ (of (l.filterMap f)).entries ↔ n = l.countP (fun a => f a = some k) ∧ 0 < n := by
  have hcount : (l.filterMap f).count k = l.countP fun a => f a = some k := by
    rw [List.count, List.countP_filterMap]
    apply List.countP_congr
    intro a _
    cases f a <;> simp
  rw [mem_entries_of, ← List.count_pos_iff, hcount]
  constructor
  · rintro ⟨hpos, rfl⟩
    exact ⟨rfl, hpos⟩
  · rintro ⟨rfl, hpos⟩
    exact ⟨hpos, rfl⟩

/-- A tally is empty exactly if nothing was counted. -/
theorem entries_of_eq_nil {l : List κ} : (of l).entries = [] ↔ l = [] := by
  constructor
  · intro h
    rw [List.eq_nil_iff_forall_not_mem]
    intro k hk
    have hmem := mem_entries_of.2 ⟨hk, rfl⟩
    rw [h] at hmem
    exact List.not_mem_nil hmem
  · rintro rfl
    rfl

/-- The tally of a longer list has every entry of the shorter one, no smaller. -/
theorem mem_entries_of_append {l : List κ} (l' : List κ) {k : κ} {n : ℕ}
    (h : (k, n) ∈ (of l).entries) : ∃ n', (k, n') ∈ (of (l ++ l')).entries ∧ n ≤ n' := by
  obtain ⟨hk, rfl⟩ := mem_entries_of.1 h
  refine ⟨(l ++ l').count k, mem_entries_of.2 ⟨List.mem_append_left _ hk, rfl⟩, ?_⟩
  rw [List.count_append]
  omega

end Tally
