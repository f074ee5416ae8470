/-
# Accepted texts are plain

The JSON parser takes its text from the left, and a control character only between two tokens and
only as white space.  So a text it accepts has no others (`parse_plain`), wherever they stand.
-/
import L4Scope.Json
import Mathlib.Data.List.TakeWhile

namespace Json

variable {enc : List Char → List Char}

/-! ## Plain characters -/

/-- The character is no control character, or white space. -/
def Plain (c : Char) : Prop := 0x20 ≤ c.toNat ∨ isWs c = true

/-- The text `s` is some plain characters and then `rest`. -/
def Consumes (s rest : List Char) : Prop := ∃ used, s = used ++ rest ∧ ∀ c ∈ used, Plain c

namespace Consumes

variable {s t u : List Char}

theorem refl (s : List Char) : Consumes s s := ⟨[], rfl, by simp⟩

theorem trans (h : Consumes s t) (h' : Consumes t u) : Consumes s u := by
  obtain ⟨a, rfl, ha⟩ := h
  obtain ⟨b, rfl, hb⟩ := h'
  exact ⟨a ++ b, (List.append_assoc a b u).symm, List.forall_mem_append.2 ⟨ha, hb⟩⟩

theorem cons {c : Char} (hc : Plain c) (h : Consumes s t) : Consumes (c :: s) t := by
  obtain ⟨a, rfl, ha⟩ := h
  exact ⟨c :: a, rfl, List.forall_mem_cons.2 ⟨hc, ha⟩⟩

end Consumes

/-- A result that is only wrapped leaves the same rest. -/
theorem rest_of_wrapped {α β : Type} {x : Option (α × List Char)} {f : α → β} {b : β}
    {rest : List Char} (h : (do let (a, s) ← x; some (f a, s)) = some (b, rest)) :
    ∃ a, x = some (a, rest) := by
  simp only [Option.bind_eq_bind, Option.bind_eq_some_iff] at h
  obtain ⟨⟨a, s⟩, hx, h⟩ := h
  rw [Option.some.injEq, Prod.mk.injEq] at h
  obtain ⟨-, rfl⟩ := h
  exact ⟨a, hx⟩

/-- The rest of a result that is given. -/
theorem rest_of_some {α : Type} {a b : α} {s rest : List Char}
    (h : some (a, s) = some (b, rest)) : s = rest := by
  rw [Option.some.injEq, Prod.mk.injEq] at h
  exact h.2

/-- Characters from a plain one on are plain. -/
theorem plain_of_le {c d : Char} (hd : 0x20 ≤ d.toNat) (h : d ≤ c) : Plain c :=
  Or.inl (hd.trans (UInt32.le_iff_toNat_le.1 h))

/-- Digits are plain. -/
theorem plain_isDigit {c : Char} (h : c.isDigit = true) : Plain c := by
  simp only [Char.isDigit, Bool.and_eq_true, decide_eq_true_eq] at h
  exact plain_of_le (d := '0') (by decide) h.1

/-- A run of plain characters. -/
theorem consumes_takeWhile {p : Char → Bool} (hp : ∀ c, p c = true → Plain c) (s : List Char) :
    Consumes s (s.dropWhile p) := by
  refine ⟨s.takeWhile p, List.takeWhile_append_dropWhile.symm, ?_⟩
  intro c hc
  exact hp c (List.mem_takeWhile_imp hc)

/-- White space is plain. -/
theorem consumes_skipWs (s : List Char) : Consumes s (skipWs s) :=
  consumes_takeWhile (fun _ h => Or.inr h) s

/-- Hexadecimal digits are plain. -/
theorem plain_hexDigit {c : Char} {v : ℕ} (h : hexDigit c = some v) : Plain c := by
  rw [hexDigit] at h
  split_ifs at h with h1 h2 h3
  · exact plain_of_le (by decide) h1.1
  · exact plain_of_le (by decide) h2.1
  · exact plain_of_le (by decide) h3.1

/-- Four of them. -/
theorem consumes_hex4 {s rest : List Char} {v : ℕ} (h : hex4 s = some (v, rest)) :
    Consumes s rest := by
  match s with
  | a :: b :: c :: d :: s =>
    simp only [hex4, Option.bind_eq_bind, Option.bind_eq_some_iff, Option.some.injEq,
      Prod.mk.injEq] at h
    obtain ⟨va, ha, vb, hb, vc, hc, vd, hd, -, rfl⟩ := h
    exact .cons (plain_hexDigit ha) (.cons (plain_hexDigit hb) (.cons (plain_hexDigit hc)
      (.cons (plain_hexDigit hd) (.refl s))))
  | [] | [_] | [_, _] | [_, _, _] => simp [hex4] at h

/-- An escape by code point. -/
theorem consumes_unicode {s rest : List Char} {c : Char} (h : unicode s = some (c, rest)) :
    Consumes s rest := by
  simp only [unicode, Option.bind_eq_bind, Option.bind_eq_some_iff] at h
  obtain ⟨⟨hi, s'⟩, hhi, h⟩ := h
  refine (consumes_hex4 hhi).trans ?_
  dsimp only at h
  split_ifs at h
  · split at h
    · simp only [Option.bind_eq_some_iff] at h
      obtain ⟨⟨lo, s''⟩, hlo, h⟩ := h
      dsimp only at h
      split_ifs at h
      rw [← rest_of_some h]
      exact .cons (Or.inl (by decide)) (.cons (Or.inl (by decide)) (consumes_hex4 hlo))
    · exact absurd h (by simp)
  · rw [← rest_of_some h]
    exact .refl s'

/-- Any escape. -/
theorem consumes_escape {s rest : List Char} {c : Char} (h : escape s = some (c, rest)) :
    Consumes s rest := by
  cases s with
  | nil => exact absurd h (by simp [escape])
  | cons d s =>
      unfold escape at h
      dsimp only at h
      split at h
      case h_9 => exact .cons (Or.inl (by decide)) (consumes_unicode h)
      case h_10 => exact absurd h (by simp)
      all_goals
        rw [← rest_of_some h]
        exact .cons (Or.inl (by decide)) (.refl s)

/-- A string has plain characters only. -/
theorem consumes_stringBody {n : ℕ} {s rest t : List Char}
    (h : stringBody n s = some (t, rest)) : Consumes s rest := by
  induction n generalizing s t with
  | zero => exact absurd h (by simp [stringBody])
  | succ n ih =>
      cases s with
      | nil => exact absurd h (by simp [stringBody])
      | cons c s =>
          rw [stringBody] at h
          split_ifs at h with hquote hslash hcontrol
          · rw [hquote, ← rest_of_some h]
            exact .cons (Or.inl (by decide)) (.refl s)
          · obtain ⟨⟨d, s'⟩, hd, h⟩ := Option.bind_eq_some_iff.1 h
            obtain ⟨t', ht⟩ := rest_of_wrapped h
            rw [hslash]
            exact .cons (Or.inl (by decide)) ((consumes_escape hd).trans (ih ht))
          · obtain ⟨t', ht⟩ := rest_of_wrapped h
            exact .cons (Or.inl (Nat.le_of_not_lt hcontrol)) (ih ht)

/-- Digits. -/
theorem consumes_digits {s rest ds : List Char} (h : digits s = some (ds, rest)) :
    Consumes s rest := by
  rw [digits] at h
  split_ifs at h
  rw [← rest_of_some h]
  exact consumes_takeWhile (fun _ => plain_isDigit) s

/-- A sign. -/
theorem consumes_numSign (s : List Char) : Consumes s (numSign s).2 := by
  cases s with
  | nil => exact .refl _
  | cons c s =>
      unfold numSign
      split
      · rename_i h
        obtain ⟨rfl, rfl⟩ := List.cons.inj h
        exact .cons (Or.inl (by decide)) (.refl _)
      · exact .refl _

/-- A whole number. -/
theorem consumes_intPart {s rest ds : List Char} (h : intPart s = some (ds, rest)) :
    Consumes s rest := by
  simp only [intPart, Option.bind_eq_bind, Option.bind_eq_some_iff] at h
  obtain ⟨⟨ds', s'⟩, hds, h⟩ := h
  dsimp only at h
  split_ifs at h
  rw [← rest_of_some h]
  exact consumes_digits hds

/-- A fraction. -/
theorem consumes_fracPart {s rest ds : List Char} (h : fracPart s = some (ds, rest)) :
    Consumes s rest := by
  unfold fracPart at h
  split at h
  · obtain ⟨ds', hds⟩ := rest_of_wrapped h
    exact .cons (Or.inl (by decide)) (consumes_digits hds)
  · rw [rest_of_some h]
    exact .refl _

/-- The sign of an exponent. -/
theorem consumes_expSign (s : List Char) : Consumes s (expSign s).2 := by
  cases s with
  | nil => exact .refl _
  | cons c s =>
      unfold expSign
      split
      · rename_i h
        obtain ⟨rfl, rfl⟩ := List.cons.inj h
        exact .cons (Or.inl (by decide)) (.refl _)
      · rename_i h
        obtain ⟨rfl, rfl⟩ := List.cons.inj h
        exact .cons (Or.inl (by decide)) (.refl _)
      · exact .refl _

/-- An exponent. -/
theorem consumes_expPart {s rest ds : List Char} (h : expPart s = some (ds, rest)) :
    Consumes s rest := by
  cases s with
  | nil =>
      rw [expPart] at h
      rw [rest_of_some h]
      exact .refl _
  | cons c s =>
      rw [expPart] at h
      split_ifs at h with he
      · obtain ⟨ds', hds⟩ := rest_of_wrapped h
        refine .cons ?_ ((consumes_expSign s).trans (consumes_digits hds))
        rcases he with rfl | rfl <;> exact Or.inl (by decide)
      · rw [← rest_of_some h]
        exact .refl _

/-- A number. -/
theorem consumes_number {s rest ds : List Char} (h : number s = some (ds, rest)) :
    Consumes s rest := by
  simp only [number, Option.bind_eq_bind, Option.bind_eq_some_iff] at h
  obtain ⟨⟨int, s₁⟩, hint, ⟨frac, s₂⟩, hfrac, ⟨exp, s₃⟩, hexp, h⟩ := h
  rw [← rest_of_some h]
  exact (consumes_numSign s).trans ((consumes_intPart hint).trans
    ((consumes_fracPart hfrac).trans (consumes_expPart hexp)))

/-- A literal name. -/
theorem consumes_literal {name s rest : List Char} {j j' : Json} (hname : ∀ c ∈ name, Plain c)
    (h : literal name j s = some (j', rest)) : Consumes s rest := by
  rw [literal] at h
  split_ifs at h with htake
  refine ⟨name, ?_, hname⟩
  calc s = s.take name.length ++ s.drop name.length := (List.take_append_drop _ s).symm
    _ = name ++ rest := by rw [htake, rest_of_some h]

/-- What `value`, `elements` and `members` take with fuel `n` is plain. -/
structure ConsumesAt (n : ℕ) : Prop where
  value : ∀ {s rest : List Char} {j : Json}, value n s = some (j, rest) → Consumes s rest
  elements : ∀ {s rest : List Char} {xs : List Json},
    elements n s = some (xs, rest) → Consumes s rest
  members : ∀ {s rest : List Char} {ms : List (List Char × Json)},
    members n s = some (ms, rest) → Consumes s rest

/-- The text is its white space, one plain character and `t`. -/
theorem consumes_token {s t : List Char} {c : Char} (hc : Plain c) (h : skipWs s = c :: t) :
    Consumes s t := by
  have hskip := consumes_skipWs s
  rw [h] at hskip
  exact hskip.trans (.cons hc (.refl t))

/-- The closing bracket of an empty array or object. -/
theorem consumes_close {s : List Char} {c : Char} (hc : Plain c) (h : (skipWs s).head? = some c) :
    Consumes s (skipWs s).tail := by
  obtain ⟨t, ht⟩ := List.head?_eq_some_iff.1 h
  rw [ht, List.tail_cons]
  exact consumes_token hc ht

/-- A value, if what is nested in it is plain. -/
theorem consumesAt_value {n : ℕ} (ih : ConsumesAt n) {s rest : List Char} {j : Json}
    (h : Json.value (n + 1) s = some (j, rest)) : Consumes s rest := by
  rw [Json.value] at h
  split at h
  · exact absurd h (by simp)
  · rename_i c s' hs
    have htoken : Plain c → Consumes s s' := fun hc => consumes_token hc hs
    split_ifs at h with hquote hbracket hclose hbrace hclose hn ht hf
    · obtain ⟨t, ht⟩ := rest_of_wrapped h
      exact (htoken (hquote ▸ Or.inl (by decide))).trans (consumes_stringBody ht)
    · rw [← rest_of_some h]
      exact (htoken (hbracket ▸ Or.inl (by decide))).trans
        (consumes_close (Or.inl (by decide)) hclose)
    · obtain ⟨xs, hxs⟩ := rest_of_wrapped h
      exact (htoken (hbracket ▸ Or.inl (by decide))).trans (ih.elements hxs)
    · rw [← rest_of_some h]
      exact (htoken (hbrace ▸ Or.inl (by decide))).trans
        (consumes_close (Or.inl (by decide)) hclose)
    · obtain ⟨ms, hms⟩ := rest_of_wrapped h
      exact (htoken (hbrace ▸ Or.inl (by decide))).trans (ih.members hms)
    · exact (htoken (hn ▸ Or.inl (by decide))).trans
        (consumes_literal (by simp [Plain]) h)
    · exact (htoken (ht ▸ Or.inl (by decide))).trans
        (consumes_literal (by simp [Plain]) h)
    · exact (htoken (hf ▸ Or.inl (by decide))).trans
        (consumes_literal (by simp [Plain]) h)
    · obtain ⟨ds, hds⟩ := rest_of_wrapped h
      have hskip := consumes_skipWs s
      rw [hs] at hskip
      exact hskip.trans (consumes_number hds)

/-- The elements of an array. -/
theorem consumesAt_elements {n : ℕ} (ih : ConsumesAt n) {s rest : List Char} {xs : List Json}
    (h : Json.elements (n + 1) s = some (xs, rest)) : Consumes s rest := by
  simp only [Json.elements, Option.bind_eq_bind, Option.bind_eq_some_iff] at h
  obtain ⟨⟨x, s'⟩, hx, h⟩ := h
  refine (ih.value hx).trans ?_
  dsimp only at h
  split at h
  · rename_i t hs
    obtain ⟨ys, hys⟩ := rest_of_wrapped h
    exact (consumes_token (Or.inl (by decide)) hs).trans (ih.elements hys)
  · rename_i t hs
    rw [← rest_of_some h]
    exact consumes_token (Or.inl (by decide)) hs
  · exact absurd h (by simp)

/-- The members of an object. -/
theorem consumesAt_members {n : ℕ} (ih : ConsumesAt n) {s rest : List Char}
    {ms : List (List Char × Json)} (h : Json.members (n + 1) s = some (ms, rest)) :
    Consumes s rest := by
  rw [Json.members] at h
  split at h
  · rename_i s₁ hs₁
    refine (consumes_token (Or.inl (by decide)) hs₁).trans ?_
    simp only [Option.bind_eq_bind, Option.bind_eq_some_iff] at h
    obtain ⟨⟨k, s₂⟩, hk, h⟩ := h
    refine (consumes_stringBody hk).trans ?_
    dsimp only at h
    split at h
    · rename_i s₃ hs₃
      refine (consumes_token (Or.inl (by decide)) hs₃).trans ?_
      simp only [Option.bind_eq_some_iff] at h
      obtain ⟨⟨v, s₄⟩, hv, h⟩ := h
      refine (ih.value hv).trans ?_
      dsimp only at h
      split at h
      · rename_i t hs
        obtain ⟨ms', hms⟩ := rest_of_wrapped h
        exact (consumes_token (Or.inl (by decide)) hs).trans (ih.members hms)
      · rename_i t hs
        rw [← rest_of_some h]
        exact consumes_token (Or.inl (by decide)) hs
      · exact absurd h (by simp)
    · exact absurd h (by simp)
  · exact absurd h (by simp)

/-- **Whatever is read is plain.** -/
theorem consumesAt (n : ℕ) : ConsumesAt n := by
  -- the induction is on the fuel, which the three parsers share
  induction n with
  | zero =>
      constructor <;> intro s rest x h <;> exact absurd h (by simp [value, elements, members])
  | succ n ih => exact ⟨consumesAt_value ih, consumesAt_elements ih, consumesAt_members ih⟩

/-- **A text that is accepted is plain.** -/
theorem parse_plain {text : String} {j : Json} (h : parse text = some j) :
    ∀ c ∈ text.toList, Plain c := by
  simp only [parse, Option.bind_eq_bind, Option.bind_eq_some_iff] at h
  obtain ⟨⟨j', s⟩, hvalue, h⟩ := h
  dsimp only at h
  split_ifs at h with hend
  obtain ⟨used, htext, hused⟩ := ((consumesAt _).value hvalue).trans (consumes_skipWs s)
  rw [htext, hend, List.append_nil]
  exact hused

/-! ## The strings of an accepted text -/

mutual

/-- Each encoded string is part of the printed text. -/
theorem all_of_print {P : Char → Prop} : ∀ j : Json, (∀ c ∈ print enc j, P c) →
    All (fun t => ∀ c ∈ enc t, P c) (fun _ => True) j
  | null, _ => .null
  | bool b, _ => .bool b
  | num _, _ => .num trivial
  | str t, h => by
    rw [print] at h
    exact .str fun c hc => h c (by simp [hc])
  | arr [], _ => .arr (by simp)
  | arr (x :: xs), h => by
    simp only [print, List.forall_mem_cons, List.forall_mem_append] at h
    exact .arr (List.forall_mem_cons.2 ⟨all_of_print x h.2.1, all_of_printItems xs h.2.2.1⟩)
  | obj [], _ => .obj (by simp) (by simp)
  | obj ((k, v) :: ms), h => by
    simp only [print, List.forall_mem_cons, List.forall_mem_append] at h
    obtain ⟨-, -, hk, -, -, hv, hms, -⟩ := h
    exact all_obj.2 (List.forall_mem_cons.2 ⟨⟨hk, all_of_print v hv⟩, all_of_printMembers ms hms⟩)

/-- A property of all characters of an array's text. -/
theorem all_of_printItems {P : Char → Prop} : ∀ xs : List Json, (∀ c ∈ printItems enc xs, P c) →
    ∀ x ∈ xs, All (fun t => ∀ c ∈ enc t, P c) (fun _ => True) x
  | [], _ => by simp
  | x :: xs, h => by
    simp only [printItems, List.forall_mem_cons, List.forall_mem_append] at h
    exact List.forall_mem_cons.2 ⟨all_of_print x h.2.1, all_of_printItems xs h.2.2⟩

/-- A property of all characters of an object's text. -/
theorem all_of_printMembers {P : Char → Prop} : ∀ ms : List (List Char × Json),
    (∀ c ∈ printMembers enc ms, P c) →
    ∀ m ∈ ms, (∀ c ∈ enc m.1, P c) ∧ All (fun t => ∀ c ∈ enc t, P c) (fun _ => True) m.2
  | [], _ => by simp
  | (k, v) :: ms, h => by
    simp only [printMembers, List.forall_mem_cons, List.forall_mem_append] at h
    obtain ⟨-, -, hk, -, -, hv, hms⟩ := h
    exact List.forall_mem_cons.2 ⟨⟨hk, all_of_print v hv⟩, all_of_printMembers ms hms⟩

end

/-- The strings of a printed value are written with plain characters, if the text is accepted. -/
theorem all_plain_of_parse {j j' : Json} (h : parse (String.ofList (print enc j)) = some j') :
    All (fun t => ∀ c ∈ enc t, Plain c) (fun _ => True) j := by
  have hplain := parse_plain h
  rw [String.toList_ofList] at hplain
  exact all_of_print j hplain

end Json
