/-
# Trimming and splitting

What `trim` and `split_once` do to a text that is put together from pieces: a character that is
no white space stops the trimming from either side, and the first separator is the one that is
split at.
-/
import L4Scope.ConfigText

/-! ## Dropping from both ends -/

section Drop

variable {α : Type} {p : α → Bool}

/-- An element that stays stops the dropping. -/
theorem dropWhile_append_cons {c : α} (hc : p c = false) (a b : List α) :
    (a ++ c :: b).dropWhile p = a.dropWhile p ++ c :: b := by
  have hrest : (c :: b).dropWhile p = c :: b := List.dropWhile_cons_of_neg (by simp [hc])
  rw [List.dropWhile_append, hrest]
  split_ifs with hnil
  · rw [List.isEmpty_iff.1 hnil, List.nil_append]
  · rfl

/-- Stripping from the right stops at a character that is kept. -/
theorem rdropWhile_append_cons {c : α} (hc : p c = false) (a b : List α) :
    (a ++ c :: b).rdropWhile p = a ++ c :: b.rdropWhile p := by
  rw [List.rdropWhile, List.reverse_append, List.reverse_cons, List.append_assoc,
    List.singleton_append, dropWhile_append_cons hc, List.reverse_append, List.reverse_cons,
    List.reverse_reverse, List.append_assoc, List.singleton_append, ← List.rdropWhile]

end Drop

/-! ## Trimming -/

/-- Trimming stops there on both sides. -/
theorem trim_append_cons {c : Char} (hc : isWhitespace c = false) (a b : List Char) :
    trim (a ++ c :: b) = a.dropWhile isWhitespace ++ c :: b.rdropWhile isWhitespace := by
  rw [trim, dropWhile_append_cons hc, rdropWhile_append_cons hc]

/-- Only white space is trimmed away altogether. -/
theorem trim_eq_nil_iff {s : List Char} : trim s = [] ↔ ∀ c ∈ s, isWhitespace c = true := by
  constructor
  · intro h c hc
    by_contra hne
    obtain ⟨a, b, rfl⟩ := List.append_of_mem hc
    rw [trim_append_cons (by simpa using hne)] at h
    exact absurd h (List.append_ne_nil_of_right_ne_nil _ (List.cons_ne_nil _ _))
  · intro h
    rw [trim, List.dropWhile_eq_nil_iff.2 h, List.rdropWhile_nil]

/-- A text is white space, or has a character that stops the trimming. -/
theorem trim_cases (s : List Char) :
    trim s = [] ∨ ∃ a c b, s = a ++ c :: b ∧ isWhitespace c = false := by
  by_cases h : ∀ c ∈ s, isWhitespace c = true
  · exact Or.inl (trim_eq_nil_iff.2 h)
  · push Not at h
    obtain ⟨c, hc, hne⟩ := h
    obtain ⟨a, b, rfl⟩ := List.append_of_mem hc
    exact Or.inr ⟨a, c, b, rfl, by simpa using hne⟩

/-- Trimming adds nothing. -/
theorem mem_of_mem_trim {c : Char} {s : List Char} (h : c ∈ trim s) : c ∈ s :=
  (List.dropWhile_sublist _).subset ((List.rdropWhile_prefix _ _).subset h)

/-- Unquoting adds nothing. -/
theorem mem_of_mem_unquote {c : Char} {v : List Char} (h : c ∈ (unquote v).toList) : c ∈ v := by
  unfold unquote at h
  dsimp only at h
  split_ifs at h
  · rw [String.toList_ofList] at h
    exact mem_of_mem_trim (List.mem_of_mem_tail ((List.dropLast_subset _) h))
  · rw [String.toList_ofList] at h
    exact mem_of_mem_trim h

/-- White space in front makes no difference. -/
theorem trim_dropWhile (s : List Char) : trim (s.dropWhile isWhitespace) = trim s := by
  rw [trim, trim, List.dropWhile_idempotent]

/-- Nor does white space behind. -/
theorem trim_rdropWhile (s : List Char) : trim (s.rdropWhile isWhitespace) = trim s := by
  rcases trim_cases s with hnil | ⟨a, c, b, rfl, hc⟩
  · have hall := trim_eq_nil_iff.1 hnil
    rw [List.rdropWhile_eq_nil_iff.2 hall, hnil]
    rfl
  · rw [rdropWhile_append_cons hc, trim_append_cons hc, trim_append_cons hc,
      List.rdropWhile_idempotent]

/-! ## Splitting at the first separator -/

/-- A text is split at the first separator. -/
theorem splitOnce_append_cons {c : Char} {a : List Char} (hc : c ∉ a) (b : List Char) :
    splitOnce c (a ++ c :: b) = some (a, b) := by
  have hall : ∀ x ∈ a, decide (x ≠ c) = true := by
    intro x hx
    rw [decide_eq_true_eq]
    rintro rfl
    exact hc hx
  rw [splitOnce, if_pos (by simp), List.takeWhile_append_of_pos hall,
    List.dropWhile_append_of_pos hall, List.takeWhile_cons_of_neg (by simp),
    List.dropWhile_cons_of_neg (by simp), List.append_nil, List.tail_cons]

/-- The separator is the first. -/
theorem splitOnce_eq_some_iff {c : Char} {s a b : List Char} :
    splitOnce c s = some (a, b) ↔ s = a ++ c :: b ∧ c ∉ a := by
  constructor
  · intro h
    by_cases hc : c ∈ s
    · obtain ⟨a', b', rfl, ha'⟩ := List.eq_append_cons_of_mem hc
      rw [splitOnce_append_cons ha'] at h
      cases h
      exact ⟨rfl, ha'⟩
    · rw [splitOnce, if_neg hc] at h
      cases h
  · rintro ⟨rfl, ha⟩
    exact splitOnce_append_cons ha b

/-- Without a separator it is not split. -/
theorem splitOnce_eq_none_iff {c : Char} {s : List Char} : splitOnce c s = none ↔ c ∉ s := by
  rw [splitOnce]
  split_ifs with hc
  · simp [hc]
  · simp [hc]

/-- White space around the text is white space around its two parts. -/
theorem splitOnce_trim {c : Char} (hc : isWhitespace c = false) {s a b : List Char} :
    splitOnce c s = some (a, b) →
      splitOnce c (trim s) = some (a.dropWhile isWhitespace, b.rdropWhile isWhitespace) := by
  rw [splitOnce_eq_some_iff, splitOnce_eq_some_iff]
  rintro ⟨rfl, ha⟩
  refine ⟨trim_append_cons hc a b, fun hmem => ha ?_⟩
  exact (List.dropWhile_sublist _).subset hmem
