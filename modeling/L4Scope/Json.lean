/-
# JSON

A strict parser for JSON texts after RFC 8259, and a compact printer.

The parser takes fuel, of which a text never needs more than its length.  It reads a printed value
back if it reads back the strings and the numbers in it (`value_print`).
-/
import Mathlib.Data.List.Basic
import Mathlib.Data.Nat.Digits.Defs
import Mathlib.Tactic.IntervalCases

/-! ## Values -/

/-- A JSON value; a number is kept as it is written. -/
inductive Json where
  | null
  | bool (b : Bool)
  | num (lexeme : List Char)
  | str (s : List Char)
  | arr (items : List Json)
  | obj (members : List (List Char × Json))

namespace Json

/-! ## The parser -/

/-- White space between tokens. -/
def isWs (c : Char) : Bool := c = ' ' || c = '\t' || c = '\n' || c = '\r'

/-- Drops white space in front. -/
def skipWs (s : List Char) : List Char := s.dropWhile isWs

/-- The value of a hexadecimal digit. -/
def hexDigit (c : Char) : Option ℕ :=
  if '0' ≤ c ∧ c ≤ '9' then some (c.toNat - '0'.toNat)
  else if 'a' ≤ c ∧ c ≤ 'f' then some (c.toNat - 'a'.toNat + 10)
  else if 'A' ≤ c ∧ c ≤ 'F' then some (c.toNat - 'A'.toNat + 10)
  else none

/-- Four hexadecimal digits. -/
def hex4 : List Char → Option (ℕ × List Char)
  | a :: b :: c :: d :: s => do
    let a ← hexDigit a
    let b ← hexDigit b
    let c ← hexDigit c
    let d ← hexDigit d
    some (((a * 16 + b) * 16 + c) * 16 + d, s)
  | _ => none

/-- What follows `\u`: a code unit, or a surrogate pair. -/
def unicode (s : List Char) : Option (Char × List Char) := do
  let (hi, s) ← hex4 s
  if 0xD800 ≤ hi ∧ hi < 0xDC00 then
    match s with
    | '\\' :: 'u' :: s => do
      let (lo, s) ← hex4 s
      if 0xDC00 ≤ lo ∧ lo < 0xE000 then
        some (Char.ofNat (0x10000 + (hi - 0xD800) * 0x400 + (lo - 0xDC00)), s)
      else none
    | _ => none
  else if 0xDC00 ≤ hi ∧ hi < 0xE000 then none
  else some (Char.ofNat hi, s)

/-- What follows a backslash. -/
def escape : List Char → Option (Char × List Char)
  | [] => none
  | c :: s =>
    match c with
    | '"' => some ('"', s)
    | '\\' => some ('\\', s)
    | '/' => some ('/', s)
    | 'b' => some ('\x08', s)
    | 'f' => some ('\x0c', s)
    | 'n' => some ('\n', s)
    | 'r' => some ('\r', s)
    | 't' => some ('\t', s)
    | 'u' => unicode s
    | _ => none

/-- The rest of a string, after its opening quote. -/
def stringBody : ℕ → List Char → Option (List Char × List Char)
  | 0, _ => none
  | _ + 1, [] => none
  | n + 1, c :: s =>
    if c = '"' then some ([], s)
    else if c = '\\' then do
      let (c, s) ← escape s
      let (cs, s) ← stringBody n s
      some (c :: cs, s)
    -- a control character may not stand in a string
    else if c.toNat < 0x20 then none
    else do
      let (cs, s) ← stringBody n s
      some (c :: cs, s)

/-- One or more digits. -/
def digits (s : List Char) : Option (List Char × List Char) :=
  if s.takeWhile Char.isDigit = [] then none
  else some (s.takeWhile Char.isDigit, s.dropWhile Char.isDigit)

/-- The integer part: no leading zero. -/
def intPart (s : List Char) : Option (List Char × List Char) := do
  let (ds, s) ← digits s
  if ds.head? = some '0' ∧ ds ≠ ['0'] then none else some (ds, s)

/-- Reads a fraction, if there is one. -/
def fracPart (s : List Char) : Option (List Char × List Char) :=
  match s with
  | '.' :: s => do
    let (ds, s) ← digits s
    some ('.' :: ds, s)
  | s => some ([], s)

/-- Reads the sign of an exponent. -/
def expSign (s : List Char) : List Char × List Char :=
  match s with
  | '+' :: s => (['+'], s)
  | '-' :: s => (['-'], s)
  | s => ([], s)

/-- Reads an exponent, if there is one. -/
def expPart (s : List Char) : Option (List Char × List Char) :=
  match s with
  | [] => some ([], [])
  | c :: s =>
    if c = 'e' ∨ c = 'E' then do
      let (ds, s') ← digits (expSign s).2
      some (c :: (expSign s).1 ++ ds, s')
    else some ([], c :: s)

/-- Reads a minus sign. -/
def numSign (s : List Char) : List Char × List Char :=
  match s with
  | '-' :: s => (['-'], s)
  | s => ([], s)

/-- Reads the text of a number. -/
def number (s : List Char) : Option (List Char × List Char) := do
  let (int, s') ← intPart (numSign s).2
  let (frac, s') ← fracPart s'
  let (exp, s') ← expPart s'
  some ((numSign s).1 ++ int ++ frac ++ exp, s')

/-- The rest of a literal name, after its first letter. -/
def literal (name : List Char) (j : Json) (s : List Char) : Option (Json × List Char) :=
  if s.take name.length = name then some (j, s.drop name.length) else none

mutual

/-- Reads a value in at most `n` steps of the recursion. -/
def value : ℕ → List Char → Option (Json × List Char)
  | 0, _ => none
  | n + 1, s =>
    match skipWs s with
    | [] => none
    | c :: s =>
      if c = '"' then do
        let (t, s) ← stringBody n s
        some (str t, s)
      else if c = '[' then
        if (skipWs s).head? = some ']' then some (arr [], (skipWs s).tail)
        else do
          let (xs, s) ← elements n s
          some (arr xs, s)
      else if c = '{' then
        if (skipWs s).head? = some '}' then some (obj [], (skipWs s).tail)
        else do
          let (ms, s) ← members n s
          some (obj ms, s)
      else if c = 'n' then literal ['u', 'l', 'l'] null s
      else if c = 't' then literal ['r', 'u', 'e'] (bool true) s
      else if c = 'f' then literal ['a', 'l', 's', 'e'] (bool false) s
      else do
        let (ds, s) ← number (c :: s)
        some (num ds, s)

/-- The elements of an array that is not empty, and its closing bracket. -/
def elements : ℕ → List Char → Option (List Json × List Char)
  | 0, _ => none
  | n + 1, s => do
    let (x, s) ← value n s
    match skipWs s with
    | ',' :: s => do
      let (xs, s) ← elements n s
      some (x :: xs, s)
    | ']' :: s => some ([x], s)
    | _ => none

/-- The members of an object that is not empty, and its closing brace. -/
def members : ℕ → List Char → Option (List (List Char × Json) × List Char)
  | 0, _ => none
  | n + 1, s =>
    match skipWs s with
    | '"' :: s => do
      let (k, s) ← stringBody n s
      match skipWs s with
      | ':' :: s => do
        let (v, s) ← value n s
        match skipWs s with
        | ',' :: s => do
          let (ms, s) ← members n s
          some ((k, v) :: ms, s)
        | '}' :: s => some ([(k, v)], s)
        | _ => none
      | _ => none
    | _ => none

end

/-- A JSON text: one value, and nothing but white space around it. -/
def parse (text : String) : Option Json := do
  let (j, s) ← value (text.toList.length + 1) text.toList
  if skipWs s = [] then some j else none

/-! ## The printer -/

mutual

/-- The compact text of a value, with strings written by `enc`. -/
def print (enc : List Char → List Char) : Json → List Char
  | null => ['n', 'u', 'l', 'l']
  | bool true => ['t', 'r', 'u', 'e']
  | bool false => ['f', 'a', 'l', 's', 'e']
  | num ds => ds
  | str s => '"' :: (enc s ++ ['"'])
  | arr [] => ['[', ']']
  | arr (x :: xs) => '[' :: (print enc x ++ (printItems enc xs ++ [']']))
  | obj [] => ['{', '}']
  | obj ((k, v) :: ms) =>
    '{' :: '"' :: (enc k ++ '"' :: ':' :: (print enc v ++ (printMembers enc ms ++ ['}'])))

/-- Further items of an array. -/
def printItems (enc : List Char → List Char) : List Json → List Char
  | [] => []
  | x :: xs => ',' :: (print enc x ++ printItems enc xs)

/-- Further members of an object. -/
def printMembers (enc : List Char → List Char) : List (List Char × Json) → List Char
  | [] => []
  | (k, v) :: ms =>
    ',' :: '"' :: (enc k ++ '"' :: ':' :: (print enc v ++ printMembers enc ms))

end

/-! ## Reading a printed value back -/

/-- What may follow a value in a compact text. -/
def Delimits (rest : List Char) : Prop := ∀ c ∈ rest.head?, c = ',' ∨ c = ']' ∨ c = '}'

/-- The encoding of the string is read back. -/
def ReadsBack (enc : List Char → List Char) (t : List Char) : Prop :=
  ∀ n rest, (enc t).length < n → stringBody n (enc t ++ '"' :: rest) = some (t, rest)

/-- The text is a number, whatever may follow it. -/
structure IsNumber (ds : List Char) : Prop where
  head : ∃ c t, ds = c :: t ∧ (c.isDigit = true ∨ c = '-')
  number : ∀ rest, Delimits rest → Json.number (ds ++ rest) = some (ds, rest)

/-- The strings of the value, keys included, satisfy `p`, and its numbers satisfy `q`. -/
inductive All (p q : List Char → Prop) : Json → Prop where
  | null : All p q null
  | bool (b : Bool) : All p q (bool b)
  | num {ds : List Char} (h : q ds) : All p q (num ds)
  | str {t : List Char} (h : p t) : All p q (str t)
  | arr {xs : List Json} (h : ∀ x ∈ xs, All p q x) : All p q (arr xs)
  | obj {ms : List (List Char × Json)} (hk : ∀ m ∈ ms, p m.1) (h : ∀ m ∈ ms, All p q m.2) :
      All p q (obj ms)

/-- All strings and numbers of the value are read back. -/
abbrev Readable (enc : List Char → List Char) : Json → Prop := All (ReadsBack enc) IsNumber

/-- The value is read back where a compact text may continue. -/
def ReadAt (enc : List Char → List Char) (j : Json) : Prop :=
  ∀ n rest, (print enc j).length ≤ n → Delimits rest →
    value n (print enc j ++ rest) = some (j, rest)

variable {enc : List Char → List Char}

/-- White space ends at any other character. -/
theorem skipWs_cons {c : Char} (h : isWs c = false) (s : List Char) : skipWs (c :: s) = c :: s := by
  rw [skipWs, List.dropWhile_cons_of_neg (by simp [h])]

/-- A value starts neither with white space nor with a closing bracket. -/
theorem print_head {j : Json} (h : Readable enc j) :
    ∃ c t, print enc j = c :: t ∧ isWs c = false ∧ c ≠ ']' := by
  cases h with
  | null => exact ⟨_, _, by rw [print], by decide, by decide⟩
  | bool b => cases b <;> exact ⟨_, _, by rw [print], by decide, by decide⟩
  | num h =>
      obtain ⟨c, t, rfl, hc⟩ := h.head
      refine ⟨c, t, by rw [print], ?_, ?_⟩
      · rcases hc with hc | rfl
        · by_contra hws
          simp only [isWs, Bool.not_eq_false, Bool.or_eq_true, decide_eq_true_eq] at hws
          rcases hws with ((rfl | rfl) | rfl) | rfl <;> exact absurd hc (by decide)
        · decide
      · rintro rfl
        rcases hc with hc | hc
        · exact absurd hc (by decide)
        · exact absurd hc (by decide)
  | str h => exact ⟨_, _, by rw [print], by decide, by decide⟩
  | @arr xs h =>
      cases xs <;> exact ⟨_, _, by rw [print], by decide, by decide⟩
  | @obj ms hk h =>
      rcases ms with _ | ⟨⟨k, v⟩, ms⟩ <;> exact ⟨_, _, by rw [print], by decide, by decide⟩

/-- A comma or a closing bracket ends a value. -/
theorem delimits_cons {c : Char} (h : c = ',' ∨ c = ']' ∨ c = '}') (s : List Char) :
    Delimits (c :: s) := by
  intro d hd
  rw [List.head?_cons, Option.mem_some_iff] at hd
  rwa [← hd]

/-- The elements of a printed array. -/
theorem elements_print {x : Json} {xs : List Json} (h : ∀ y ∈ x :: xs, ReadAt enc y) (n : ℕ)
    (rest : List Char) (hn : (print enc x).length + (printItems enc xs).length < n) :
    elements n (print enc x ++ (printItems enc xs ++ ']' :: rest)) = some (x :: xs, rest) := by
  induction xs generalizing x n with
  | nil =>
      obtain ⟨n, rfl⟩ : ∃ m, n = m + 1 := ⟨n - 1, by omega⟩
      have hx := h x List.mem_cons_self n (']' :: rest) (by omega) (delimits_cons (by simp) rest)
      rw [elements, printItems, List.nil_append, hx]
      simp [skipWs_cons (show isWs ']' = false by decide)]
  | cons y ys ih =>
      obtain ⟨n, rfl⟩ : ∃ m, n = m + 1 := ⟨n - 1, by omega⟩
      rw [printItems, List.length_cons, List.length_append] at hn
      have hx := h x List.mem_cons_self n
        (',' :: (print enc y ++ (printItems enc ys ++ ']' :: rest))) (by omega)
        (delimits_cons (by simp) _)
      have hrest := ih (fun z hz => h z (List.mem_cons_of_mem _ hz)) n (by omega)
      rw [elements, printItems, List.cons_append, List.append_assoc, hx]
      simp [skipWs_cons (show isWs ',' = false by decide), hrest]

/-- The members of a printed object, after the opening brace. -/
theorem members_print {k : List Char} {v : Json} {ms : List (List Char × Json)}
    (hk : ∀ m ∈ (k, v) :: ms, ReadsBack enc m.1) (h : ∀ m ∈ (k, v) :: ms, ReadAt enc m.2) (n : ℕ)
    (rest : List Char)
    (hn : (enc k).length + (print enc v).length + (printMembers enc ms).length + 2 < n) :
    members n ('"' :: (enc k ++ '"' :: ':' :: (print enc v ++ (printMembers enc ms ++ '}' :: rest))))
      = some ((k, v) :: ms, rest) := by
  induction ms generalizing k v n with
  | nil =>
      obtain ⟨n, rfl⟩ : ∃ m, n = m + 1 := ⟨n - 1, by omega⟩
      have hk : ReadsBack enc k := hk (k, v) List.mem_cons_self
      have hv : ReadAt enc v := h (k, v) List.mem_cons_self
      have hkey := hk n (':' :: (print enc v ++ '}' :: rest)) (by omega)
      have hvalue := hv n ('}' :: rest) (by omega) (delimits_cons (by simp) rest)
      rw [members, printMembers, List.nil_append, skipWs_cons (by decide)]
      simp [hkey, hvalue, skipWs_cons (show isWs ':' = false by decide),
        skipWs_cons (show isWs '}' = false by decide)]
  | cons m ms ih =>
      obtain ⟨k', v'⟩ := m
      obtain ⟨n, rfl⟩ : ∃ m, n = m + 1 := ⟨n - 1, by omega⟩
      simp only [printMembers, List.length_cons, List.length_append] at hn
      have hk₀ : ReadsBack enc k := hk (k, v) List.mem_cons_self
      have hv : ReadAt enc v := h (k, v) List.mem_cons_self
      have hkey := hk₀ n (':' :: (print enc v ++ (',' :: '"' :: (enc k' ++
        '"' :: ':' :: (print enc v' ++ (printMembers enc ms ++ '}' :: rest)))))) (by omega)
      have hvalue := hv n (',' :: '"' :: (enc k' ++
        '"' :: ':' :: (print enc v' ++ (printMembers enc ms ++ '}' :: rest)))) (by omega)
        (delimits_cons (by simp) _)
      have hrest := ih (fun m hm => hk m (List.mem_cons_of_mem _ hm))
        (fun m hm => h m (List.mem_cons_of_mem _ hm)) n (by omega)
      rw [members, printMembers, skipWs_cons (by decide)]
      simp [hkey, hvalue, hrest, skipWs_cons (show isWs ':' = false by decide),
        skipWs_cons (show isWs ',' = false by decide)]

/-- A truth value is read back. -/
theorem readAt_bool (b : Bool) : ReadAt enc (bool b) := by
  intro n rest hn _
  obtain ⟨n, rfl⟩ : ∃ m, n = m + 1 := ⟨n - 1, by cases b <;> simp [print] at hn <;> omega⟩
  cases b with
  | true => simp [print, value, skipWs_cons (show isWs 't' = false by decide), literal]
  | false => simp [print, value, skipWs_cons (show isWs 'f' = false by decide), literal]

/-- A number is read back. -/
theorem readAt_num {ds : List Char} (h : IsNumber ds) : ReadAt enc (num ds) := by
  intro n rest hn hrest
  obtain ⟨c, t, hc, hws, -⟩ := print_head (show Readable enc (num ds) from .num h)
  rw [print] at hc hn ⊢
  obtain ⟨n, rfl⟩ : ∃ m, n = m + 1 := ⟨n - 1, by rw [hc] at hn; simp at hn; omega⟩
  have hnumber := h.number rest hrest
  obtain ⟨c', t', hc', hdigit⟩ := h.head
  rw [hc] at hnumber hc' ⊢
  obtain ⟨rfl, rfl⟩ := List.cons.inj hc'
  -- a number starts none of the other values
  have hne : ∀ d : Char, d.isDigit = false → d ≠ '-' → c ≠ d := by
    rintro d hd hminus rfl
    rcases hdigit with hdigit | hdigit
    · rw [hdigit] at hd
      exact absurd hd (by decide)
    · exact hminus hdigit
  rw [List.cons_append] at hnumber
  rw [value, List.cons_append, skipWs_cons hws]
  simp only
  rw [if_neg (hne '"' rfl (by decide)), if_neg (hne '[' rfl (by decide)),
    if_neg (hne '{' rfl (by decide)), if_neg (hne 'n' rfl (by decide)),
    if_neg (hne 't' rfl (by decide)), if_neg (hne 'f' rfl (by decide)), hnumber]
  rfl

/-- A string is read back. -/
theorem readAt_str {t : List Char} (h : ReadsBack enc t) : ReadAt enc (str t) := by
  intro n rest hn _
  rw [print] at hn ⊢
  obtain ⟨n, rfl⟩ : ∃ m, n = m + 1 := ⟨n - 1, by simp at hn; omega⟩
  have ht := h n rest (by simp at hn; omega)
  simp [value, skipWs_cons (show isWs '"' = false by decide), ht]

/-- An array is read back if its elements are. -/
theorem readAt_arr {xs : List Json} (h : ∀ x ∈ xs, Readable enc x)
    (hread : ∀ x ∈ xs, ReadAt enc x) : ReadAt enc (arr xs) := by
  intro n rest hn _
  cases xs with
  | nil =>
      obtain ⟨n, rfl⟩ : ∃ m, n = m + 1 := ⟨n - 1, by simp [print] at hn; omega⟩
      simp [print, value, skipWs_cons (show isWs '[' = false by decide),
        skipWs_cons (show isWs ']' = false by decide)]
  | cons x xs =>
      obtain ⟨c, t, hc, hws, hne⟩ := print_head (h x List.mem_cons_self)
      rw [print] at hn ⊢
      obtain ⟨n, rfl⟩ : ∃ m, n = m + 1 := ⟨n - 1, by simp at hn; omega⟩
      have helements := elements_print hread n rest (by simp at hn; omega)
      have hskip : skipWs (print enc x ++ (printItems enc xs ++ ']' :: rest))
          = print enc x ++ (printItems enc xs ++ ']' :: rest) := by
        rw [hc, List.cons_append, skipWs_cons hws]
      -- an element never starts with the bracket that ends an empty array
      have hhead : (print enc x ++ (printItems enc xs ++ ']' :: rest)).head? ≠ some ']' := by
        rw [hc]
        simpa using hne
      have htext : '[' :: (print enc x ++ (printItems enc xs ++ [']'])) ++ rest
          = '[' :: (print enc x ++ (printItems enc xs ++ ']' :: rest)) := by simp
      rw [htext, value, skipWs_cons (by decide)]
      dsimp only
      rw [if_neg (by decide), if_pos rfl, hskip, if_neg hhead, helements]
      rfl

/-- An object is read back if its members are. -/
theorem readAt_obj {ms : List (List Char × Json)} (hk : ∀ m ∈ ms, ReadsBack enc m.1)
    (hread : ∀ m ∈ ms, ReadAt enc m.2) : ReadAt enc (obj ms) := by
  intro n rest hn _
  rcases ms with _ | ⟨⟨k, v⟩, ms⟩
  · obtain ⟨n, rfl⟩ : ∃ m, n = m + 1 := ⟨n - 1, by simp [print] at hn; omega⟩
    simp [print, value, skipWs_cons (show isWs '{' = false by decide),
      skipWs_cons (show isWs '}' = false by decide)]
  · rw [print] at hn ⊢
    obtain ⟨n, rfl⟩ : ∃ m, n = m + 1 := ⟨n - 1, by simp at hn; omega⟩
    have hmembers := members_print hk hread n rest (by simp at hn; omega)
    simp [value, skipWs_cons (show isWs '{' = false by decide),
      skipWs_cons (show isWs '"' = false by decide), hmembers]

/-- **A printed value is read back.** -/
theorem value_print {j : Json} (h : Readable enc j) : ReadAt enc j := by
  induction h with
  | null =>
      intro n rest hn _
      obtain ⟨n, rfl⟩ : ∃ m, n = m + 1 := ⟨n - 1, by simp [print] at hn; omega⟩
      simp [print, value, skipWs_cons (show isWs 'n' = false by decide), literal]
  | bool b => exact readAt_bool b
  | num h => exact readAt_num h
  | str h => exact readAt_str h
  | arr h ih => exact readAt_arr h ih
  | obj hk _ ih => exact readAt_obj hk ih

/-- A text that prints a value is parsed to it. -/
theorem parse_print {j : Json} (h : Readable enc j) :
    parse (String.ofList (print enc j)) = some j := by
  have hvalue := value_print h ((print enc j).length + 1) [] (by omega) (by simp [Delimits])
  rw [List.append_nil] at hvalue
  rw [parse, String.toList_ofList, hvalue]
  rfl

/-- The object with the given members. -/
def object (fields : List (String × Json)) : Json := obj (fields.map fun f => (f.1.toList, f.2))

/-- The string with the given text. -/
def text (s : String) : Json := str s.toList

/-! ## The strings of a value -/

section All

variable {p q : List Char → Prop}

@[simp] theorem all_num {ds : List Char} : All p q (num ds) ↔ q ds :=
  ⟨fun h => by cases h; assumption, .num⟩

@[simp] theorem all_str {t : List Char} : All p q (str t) ↔ p t :=
  ⟨fun h => by cases h; assumption, .str⟩

@[simp] theorem all_bool {b : Bool} : All p q (bool b) := .bool b

@[simp] theorem all_arr {xs : List Json} : All p q (arr xs) ↔ ∀ x ∈ xs, All p q x :=
  ⟨fun h => by cases h; assumption, .arr⟩

@[simp] theorem all_obj {ms : List (List Char × Json)} :
    All p q (obj ms) ↔ ∀ m ∈ ms, p m.1 ∧ All p q m.2 := by
  constructor
  · rintro (_ | _ | _ | _ | _ | ⟨hk, h⟩) m hm
    exact ⟨hk m hm, h m hm⟩
  · exact fun h => .obj (fun m hm => (h m hm).1) (fun m hm => (h m hm).2)

@[simp] theorem all_object {fields : List (String × Json)} :
    All p q (object fields) ↔ ∀ f ∈ fields, p f.1.toList ∧ All p q f.2 := by
  rw [object, all_obj, List.forall_mem_map]

@[simp] theorem all_text {s : String} : All p q (text s) ↔ p s.toList := all_str

end All

/-! ## Printing lists -/

/-- Elements with commas between them. -/
theorem intercalate_print (x : Json) (xs : List Json) :
    List.intercalate [','] ((x :: xs).map (print enc)) = print enc x ++ printItems enc xs := by
  induction xs generalizing x with
  | nil => simp [printItems]
  | cons y ys ih =>
      rw [List.map_cons, List.map_cons, List.intercalate_cons_cons, ← List.map_cons, ih, printItems,
        List.append_assoc, List.singleton_append]

/-- The items of an array are joined by commas. -/
theorem print_arr (xs : List Json) :
    print enc (arr xs) = '[' :: (List.intercalate [','] (xs.map (print enc)) ++ [']']) := by
  cases xs with
  | nil => rfl
  | cons x xs => rw [intercalate_print, print, List.append_assoc]

/-! ## Decimal numbers -/

/-- The digits of a number are digits. -/
theorem isDigit_of_toDigits {n : ℕ} : ∀ c ∈ Nat.toDigits 10 n, c.isDigit = true :=
  fun _ => Nat.isDigit_of_mem_toDigits (by decide) (by decide)

/-- A positive number has no leading zero. -/
theorem toDigits_head {n : ℕ} (hn : 0 < n) : (Nat.toDigits 10 n).head? ≠ some '0' := by
  induction n using Nat.strong_induction_on with
  | h n ih =>
      by_cases hlt : n < 10
      · rw [Nat.toDigits_of_lt_base hlt]
        interval_cases n <;> decide
      · have hhead := ih (n / 10) (by omega) (by omega)
        rw [Nat.toDigits_of_base_le (by decide) (by omega), List.head?_append_of_ne_nil]
        · exact hhead
        · exact Nat.toDigits_ne_nil

/-- Digits end at any other character. -/
theorem digits_append {w t : List Char} (hw : ∀ c ∈ w, c.isDigit = true) (hne : w ≠ [])
    (ht : ∀ c ∈ t.head?, c.isDigit = false) : digits (w ++ t) = some (w, t) := by
  have htake : t.takeWhile Char.isDigit = [] := by
    cases t with
    | nil => rfl
    | cons c t => exact List.takeWhile_cons_of_neg (by simp [ht c rfl])
  have hdrop : t.dropWhile Char.isDigit = t := by
    cases t with
    | nil => rfl
    | cons c t => exact List.dropWhile_cons_of_neg (by simp [ht c rfl])
  rw [digits, List.takeWhile_append_of_pos hw, List.dropWhile_append_of_pos hw, htake, hdrop,
    List.append_nil, if_neg hne]

/-- The text of a decimal number: a sign, the integer part and the fraction. -/
def decimal (negative : Bool) (whole : ℕ) (fraction : List Char) : List Char :=
  (if negative then ['-'] else []) ++ Nat.toDigits 10 whole
    ++ if fraction = [] then [] else '.' :: fraction

/-- What ends a value does not go on with a number. -/
theorem delimits_head {rest : List Char} (h : Delimits rest) : ∀ c ∈ rest.head?,
    c.isDigit = false ∧ c ≠ '.' ∧ c ≠ 'e' ∧ c ≠ 'E' := by
  intro c hc
  rcases h c hc with rfl | rfl | rfl <;> decide

/-- No fraction. -/
theorem fracPart_delimits {rest : List Char} (h : Delimits rest) :
    fracPart rest = some ([], rest) := by
  cases rest with
  | nil => rfl
  | cons c rest =>
      unfold fracPart
      split
      · rename_i heq
        exact absurd (List.cons.inj heq).1 (delimits_head h c rfl).2.1
      · rfl

/-- No exponent. -/
theorem expPart_delimits {rest : List Char} (h : Delimits rest) :
    expPart rest = some ([], rest) := by
  cases rest with
  | nil => rfl
  | cons c rest =>
      obtain ⟨-, -, he, hE⟩ := delimits_head h c rfl
      rw [expPart, if_neg (by simp [he, hE])]

/-- A fraction is read. -/
theorem fracPart_fraction {fraction rest : List Char} (hf : ∀ c ∈ fraction, c.isDigit = true)
    (hrest : Delimits rest) : fracPart ((if fraction = [] then [] else '.' :: fraction) ++ rest)
      = some (if fraction = [] then [] else '.' :: fraction, rest) := by
  split_ifs with hne
  · exact fracPart_delimits hrest
  · rw [List.cons_append, fracPart, digits_append hf hne fun c hc => (delimits_head hrest c hc).1]
    rfl

/-- A whole number is read. -/
theorem intPart_toDigits (n : ℕ) {t : List Char} (ht : ∀ c ∈ t.head?, c.isDigit = false) :
    intPart (Nat.toDigits 10 n ++ t) = some (Nat.toDigits 10 n, t) := by
  have hzero : ¬((Nat.toDigits 10 n).head? = some '0' ∧ Nat.toDigits 10 n ≠ ['0']) := by
    rintro ⟨hhead, hne⟩
    rcases Nat.eq_zero_or_pos n with rfl | hn
    · exact hne (Nat.toDigits_zero 10)
    · exact toDigits_head hn hhead
  rw [intPart, digits_append isDigit_of_toDigits Nat.toDigits_ne_nil ht]
  exact if_neg hzero

/-- A sign is read. -/
theorem numSign_sign (negative : Bool) {s : List Char} (hs : ∀ c ∈ s.head?, c.isDigit = true) :
    numSign ((if negative then ['-'] else []) ++ s) = (if negative then ['-'] else [], s) := by
  cases negative with
  | true => rfl
  | false =>
      cases s with
      | nil => rfl
      | cons c s =>
          show numSign (c :: s) = ([], c :: s)
          unfold numSign
          split
          · rename_i heq
            obtain ⟨rfl, -⟩ := List.cons.inj heq
            exact absurd (hs '-' rfl) (by decide)
          · rfl

/-- A decimal fraction is a number. -/
theorem isNumber_decimal {negative : Bool} {whole : ℕ} {fraction : List Char}
    (hf : ∀ c ∈ fraction, c.isDigit = true) : IsNumber (decimal negative whole fraction) := by
  obtain ⟨c, w, hw⟩ := List.exists_cons_of_ne_nil (Nat.toDigits_ne_nil (n := whole) (b := 10))
  have hc : c.isDigit = true := isDigit_of_toDigits c (hw ▸ List.mem_cons_self)
  constructor
  · cases negative with
    | true => exact ⟨'-', _, rfl, Or.inr rfl⟩
    | false => exact ⟨c, _, by rw [decimal, hw]; rfl, Or.inl hc⟩
  · intro rest hrest
    have hpoint : ∀ d ∈ ((if fraction = [] then [] else '.' :: fraction) ++ rest).head?,
        d.isDigit = false := by
      split_ifs
      · exact fun d hd => (delimits_head hrest d hd).1
      · simp
    have hsign := numSign_sign negative
      (s := Nat.toDigits 10 whole ++ ((if fraction = [] then [] else '.' :: fraction) ++ rest))
      (by rw [hw]; simpa using hc)
    rw [decimal, List.append_assoc, List.append_assoc, number, hsign]
    simp only [Option.bind_eq_bind, intPart_toDigits whole hpoint, Option.bind_some,
      fracPart_fraction hf hrest, expPart_delimits hrest, List.append_nil, List.append_assoc]

end Json
