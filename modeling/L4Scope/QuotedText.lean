/-
# Quoted and separated text

Two ways of putting texts behind one another so that they can be told apart again.  A text in
quotes ends at the first quote that no backslash has taken along (`Quoted.scan`); an escaping
that puts a backslash in front of quotes and backslashes keeps the end where it was and can be
undone (`Escapes.scan_flatMap`, `Escapes.unescape_flatMap`).  Texts that end in a separator and
do not contain it are the pieces between the separators (`splitOn_flatMap_end`).
-/
import Mathlib.Data.List.Basic

/-! ## Pieces that end in a separator -/

/-- Splitting at the separators gives the pieces back, and the nothing behind the last one. -/
theorem splitOn_flatMap_end {α : Type} [BEq α] [LawfulBEq α] {sep : α} {pieces : List (List α)}
    (h : ∀ p ∈ pieces, sep ∉ p) :
    (pieces.flatMap fun p => p ++ [sep]).splitOn sep = pieces ++ [[]] := by
  induction pieces with
  | nil => rfl
  | cons p pieces ih =>
      rw [List.forall_mem_cons] at h
      rw [List.flatMap_cons, List.append_assoc, List.singleton_append,
        List.splitOn_append_cons_self_of_not_mem h.1, ih h.2, List.cons_append]

/-! ## Texts in quotes -/

namespace Quoted

/-- The text up to the closing quote, and what follows it; `taken` says that a backslash has
taken the next character along. -/
def scanFrom (taken : Bool) : List Char → Option (List Char × List Char)
  | [] => none
  | c :: s =>
    if !taken && c = '"' then some ([], s)
    else (scanFrom (!taken && c = '\\') s).map fun r => (c :: r.1, r.2)

/-- What is in front of the closing quote, and what is behind it. -/
def scan (s : List Char) : Option (List Char × List Char) := scanFrom false s

/-- Undo the escapes; `unesc` says what stands behind the backslash. -/
def unescapeFrom (unesc : Char → Char) (taken : Bool) : List Char → List Char
  | [] => []
  | c :: s =>
    if taken then unesc c :: unescapeFrom unesc false s
    else if c = '\\' then unescapeFrom unesc true s
    else c :: unescapeFrom unesc false s

/-- The text that escapes stand for. -/
def unescape (unesc : Char → Char) (s : List Char) : List Char := unescapeFrom unesc false s

/-- The escaping `esc` writes a character as it is, unless it is a quote or a backslash, or as
a backslash and a character that stands for it under `unesc`. -/
def Escapes (esc : Char → List Char) (unesc : Char → Char) : Prop :=
  ∀ c, (esc c = [c] ∧ c ≠ '"' ∧ c ≠ '\\') ∨ ∃ e, esc c = ['\\', e] ∧ unesc e = c

variable {esc : Char → List Char} {unesc : Char → Char}

/-- A plain character. -/
theorem scan_cons {c : Char} (hquote : c ≠ '"') (hslash : c ≠ '\\') (s : List Char) :
    scan (c :: s) = (scan s).map fun r => (c :: r.1, r.2) := by
  simp [scan, scanFrom, hquote, hslash]

/-- An escape. -/
theorem scan_escape (e : Char) (s : List Char) :
    scan ('\\' :: e :: s) = (scan s).map fun r => ('\\' :: e :: r.1, r.2) := by
  simp [scan, scanFrom, Option.map_map, Function.comp_def]

/-- **Where the text ends.** -/
theorem Escapes.scan_flatMap (h : Escapes esc unesc) (t rest : List Char) :
    scan (t.flatMap esc ++ '"' :: rest) = some (t.flatMap esc, rest) := by
  induction t with
  | nil => rfl
  | cons c t ih =>
      rw [List.flatMap_cons, List.append_assoc]
      rcases h c with ⟨hesc, hquote, hslash⟩ | ⟨e, hesc, -⟩
      · rw [hesc, List.singleton_append, scan_cons hquote hslash, ih]
        rfl
      · rw [hesc, List.cons_append, List.singleton_append, scan_escape, ih]
        rfl

/-- A plain character stands for itself. -/
theorem unescape_cons {c : Char} (hslash : c ≠ '\\') (s : List Char) :
    unescape unesc (c :: s) = c :: unescape unesc s := by
  simp [unescape, unescapeFrom, hslash]

/-- An escape stands for what it escapes. -/
theorem unescape_escape (e : Char) (s : List Char) :
    unescape unesc ('\\' :: e :: s) = unesc e :: unescape unesc s := by
  simp [unescape, unescapeFrom]

/-- **What the text was.** -/
theorem Escapes.unescape_flatMap (h : Escapes esc unesc) (t : List Char) :
    unescape unesc (t.flatMap esc) = t := by
  induction t with
  | nil => rfl
  | cons c t ih =>
      rw [List.flatMap_cons]
      rcases h c with ⟨hesc, -, hslash⟩ | ⟨e, hesc, hback⟩
      · rw [hesc, List.singleton_append, unescape_cons hslash, ih]
      · rw [hesc, List.cons_append, List.singleton_append, unescape_escape, hback, ih]

end Quoted
