/-
# Maximal blocks of equal elements

A list splits into its maximal blocks of equal elements, `List.splitBy (· == ·)`.  Appending an
element extends the last block or starts a new one (`splitBy_concat`), so what depends on an
element and on its place in its block (`blockMap`) can be read off while the list grows
(`blockMap_concat`), from the length of the block in progress (`blockLen`).
-/
import Mathlib.Data.List.SplitBy
import Mathlib.Data.List.Induction

namespace Blocks

variable {α β : Type} [DecidableEq α]

/-- The length of the last block. -/
def blockLen (l : List α) : ℕ := ((l.splitBy (· == ·)).getLast?.map List.length).getD 0

/-- The place in its block of an element that comes next. -/
def place (l : List α) (a : α) : ℕ := if l.getLast? = some a then blockLen l else 0

/-- The images of the elements, each with its place in its block. -/
def blockMap (f : α → ℕ → β) (l : List α) : List β :=
  (l.splitBy (· == ·)).flatMap fun b => b.mapIdx fun i a => f a i

/-- An element equal to the last one extends the last block. -/
theorem splitBy_concat_same {l : List α} {a : α} (h : l.getLast? = some a) :
    ∃ bs b, l.splitBy (· == ·) = bs ++ [b] ∧ b.getLast? = some a ∧
      (l ++ [a]).splitBy (· == ·) = bs ++ [b ++ [a]] := by
  have hl : l ≠ [] := by
    rintro rfl
    cases h
  obtain hnil | ⟨bs, b, hb⟩ := List.eq_nil_or_concat (l.splitBy (· == ·))
  · exact absurd (List.splitBy_eq_nil.1 hnil) hl
  rw [List.concat_eq_append] at hb
  have hmem : b ∈ l.splitBy (· == ·) := by
    rw [hb]
    exact List.mem_append_right _ List.mem_cons_self
  have hne : b ≠ [] := List.ne_nil_of_mem_splitBy hmem
  have hlast : b.getLast? = some a := by
    have hflat := List.flatten_splitBy (· == ·) l
    rw [hb, List.flatten_append, List.flatten_singleton] at hflat
    rwa [← hflat, List.getLast?_append_of_ne_nil _ hne] at h
  refine ⟨bs, b, hb, hlast, ?_⟩
  -- the boundary in front of the last block stays, because the block keeps its head
  obtain ⟨hflat, hnil, hchain, hblocks⟩ := List.splitBy_eq_iff.1 hb
  rw [List.splitBy_eq_iff]
  refine ⟨?_, ?_, ?_, ?_⟩
  · simp [hflat]
  · simp only [List.mem_append, List.mem_singleton, not_or] at hnil ⊢
    exact ⟨hnil.1, by simp⟩
  · intro m hm
    rw [List.mem_append, List.mem_singleton] at hm
    obtain hm | rfl := hm
    · exact hchain m (List.mem_append_left _ hm)
    · rw [List.isChain_append]
      refine ⟨hchain b (List.mem_append_right _ List.mem_cons_self), by simp, ?_⟩
      intro x hx y hy
      rw [hlast] at hx
      cases hx
      cases hy
      exact beq_self_eq_true a
  · rw [List.isChain_append] at hblocks ⊢
    refine ⟨hblocks.1, by simp, ?_⟩
    intro x hx y hy
    obtain rfl : b ++ [a] = y := by simpa using hy
    obtain ⟨hx0, hb0, hdiff⟩ := hblocks.2.2 x hx b (by simp)
    refine ⟨hx0, by simp, ?_⟩
    rwa [List.head_append_of_ne_nil hb0]

/-- Any other element starts a block. -/
theorem splitBy_concat_new {l : List α} {a : α} (h : l.getLast? ≠ some a) :
    (l ++ [a]).splitBy (· == ·) = l.splitBy (· == ·) ++ [[a]] := by
  rw [List.splitBy_append_cons []]
  · rfl
  · intro x hx
    rw [beq_eq_false_iff_ne]
    rintro rfl
    exact h hx

/-- **One element more.** -/
theorem blockMap_concat (f : α → ℕ → β) (l : List α) (a : α) :
    blockMap f (l ++ [a]) = blockMap f l ++ [f a (place l a)] := by
  by_cases h : l.getLast? = some a
  · obtain ⟨bs, b, hl, -, hla⟩ := splitBy_concat_same h
    rw [blockMap, blockMap, hla, hl, place, if_pos h, blockLen, hl, List.flatMap_append,
      List.flatMap_append, List.flatMap_singleton, List.flatMap_singleton, List.mapIdx_append]
    simp
  · rw [blockMap, splitBy_concat_new h, List.flatMap_append, ← blockMap, place, if_neg h]
    simp

/-- The last block ends with its last place. -/
theorem blockLen_concat (l : List α) (a : α) : blockLen (l ++ [a]) = place l a + 1 := by
  by_cases h : l.getLast? = some a
  · obtain ⟨bs, b, hl, -, hla⟩ := splitBy_concat_same h
    rw [blockLen, hla, place, if_pos h, blockLen, hl]
    simp
  · rw [blockLen, splitBy_concat_new h, place, if_neg h]
    simp

/-- A block is not empty. -/
theorem blockLen_pos {l : List α} {a : α} (h : l.getLast? = some a) : 0 < blockLen l := by
  obtain ⟨pre, rfl⟩ := List.getLast?_eq_some_iff.1 h
  rw [blockLen_concat]
  exact Nat.succ_pos _

/-- A bound on all blocks bounds the block in progress. -/
theorem blockLen_lt {n : ℕ} {l : List α} (hn : 0 < n)
    (h : ∀ b ∈ l.splitBy (· == ·), b.length < n) : blockLen l < n := by
  rw [blockLen]
  cases hb : (l.splitBy (· == ·)).getLast? with
  | none => exact hn
  | some b => exact h b (List.mem_of_getLast? hb)

/-- Blocks only grow, so a bound holds of the blocks before too. -/
theorem length_lt_of_concat {n : ℕ} {l : List α} {a : α}
    (h : ∀ b ∈ (l ++ [a]).splitBy (· == ·), b.length < n) :
    ∀ b ∈ l.splitBy (· == ·), b.length < n := by
  by_cases hlast : l.getLast? = some a
  · obtain ⟨bs, b, hl, -, hla⟩ := splitBy_concat_same hlast
    rw [hla] at h
    rw [hl]
    intro m hm
    rw [List.mem_append, List.mem_singleton] at hm
    obtain hm | rfl := hm
    · exact h m (List.mem_append_left _ hm)
    · have hlen := h (m ++ [a]) (List.mem_append_right _ List.mem_cons_self)
      rw [List.length_append] at hlen
      omega
  · rw [splitBy_concat_new hlast] at h
    exact fun b hb => h b (List.mem_append_left _ hb)

/-- The blocks of a list are bounded if those of a longer one are. -/
theorem length_lt_of_append {n : ℕ} {l m : List α}
    (h : ∀ b ∈ (l ++ m).splitBy (· == ·), b.length < n) :
    ∀ b ∈ l.splitBy (· == ·), b.length < n := by
  induction m using List.reverseRecOn with
  | nil => rwa [List.append_nil] at h
  | append_singleton m a ih =>
      rw [← List.append_assoc] at h
      exact ih (length_lt_of_concat h)

end Blocks
