/-
# The text exposition format of metrics

A text is made of lines: a comment starts with `#`, and a sample is the name of a metric, labels
in braces, a blank and a value.  `Exposition.parse` reads a text of such lines, and `parse_lines`
says that it reads back what is written line by line.
-/
import L4Scope.QuotedText
import Mathlib.Data.List.Basic

namespace Exposition

/-- A sample: a metric, its labels and a value. -/
structure Sample where
  metric : List Char
  labels : List (List Char × List Char)
  value : List Char
  deriving DecidableEq

/-! ## Reading -/

/-- A character of a name. -/
def nameChar (c : Char) : Bool := c.isAlphanum || c = '_' || c = ':'

/-- The name of a metric or a label; it does not start with a digit. -/
def name (s : List Char) : Option (List Char × List Char) :=
  match s.takeWhile nameChar with
  | [] => none
  | c :: n => if c.isDigit then none else some (c :: n, s.dropWhile nameChar)

/-- What stands behind a backslash in the value of a label. -/
def unescapeLabel : Char → Char
  | 'n' => '\n'
  | c => c

/-- Reads a label off the front. -/
def label (s : List Char) : Option ((List Char × List Char) × List Char) := do
  let (n, s) ← name s
  match s with
  | '=' :: '"' :: s =>
    let (raw, s) ← Quoted.scan s
    some ((n, Quoted.unescape unescapeLabel raw), s)
  | _ => none

/-- The labels behind an opening brace; `n` bounds their number. -/
def labels : ℕ → List Char → Option (List (List Char × List Char) × List Char)
  | 0, _ => none
  | n + 1, s => do
    let (l, s) ← label s
    match s with
    | ',' :: s =>
      let (ls, s) ← labels n s
      some (l :: ls, s)
    | '}' :: s => some ([l], s)
    | _ => none

/-- The value of a sample is a word. -/
def value (metric : List Char) (ls : List (List Char × List Char)) : List Char → Option Sample
  | ' ' :: v => if v ≠ [] ∧ ' ' ∉ v then some ⟨metric, ls, v⟩ else none
  | _ => none

/-- Reads a sample. -/
def sample (s : List Char) : Option Sample := do
  let (metric, s) ← name s
  match s with
  | '{' :: s =>
    let (ls, s) ← labels (s.length + 1) s
    value metric ls s
  | s => value metric [] s

/-- A line holds a sample, or nothing. -/
def line : List Char → Option (Option Sample)
  | [] => some none
  | '#' :: _ => some none
  | s => (sample s).map some

/-- The samples of a text. -/
def parse (text : List Char) : Option (List Sample) :=
  ((text.splitOn '\n').mapM line).map fun samples => samples.filterMap id

/-! ## Writing -/

/-- A name of characters that names may have, the first of them no digit. -/
def IsName (n : List Char) : Prop :=
  n ≠ [] ∧ (∀ c ∈ n, nameChar c = true) ∧ ∀ c ∈ n.head?, c.isDigit = false

instance (n : List Char) : Decidable (IsName n) :=
  @instDecidableAnd _ _ _ (@instDecidableAnd _ _ (List.decidableBAll _ n)
    (Option.decidableForallMem n.head?))

/-- A text that stands between quotes as it is. -/
def IsPlain (t : List Char) : Prop := ∀ c ∈ t, c ≠ '"' ∧ c ≠ '\\' ∧ c ≠ '\n'

instance (t : List Char) : Decidable (IsPlain t) := List.decidableBAll _ t

/-- A label as text. -/
def labelText (l : List Char × List Char) : List Char := l.1 ++ '=' :: '"' :: (l.2 ++ ['"'])

namespace Sample

/-- The labels as text, in braces if there are any. -/
def labelsText (s : Sample) : List Char :=
  if s.labels = [] then [] else '{' :: (List.intercalate [','] (s.labels.map labelText) ++ ['}'])

/-- The line of a sample. -/
def text (s : Sample) : List Char := s.metric ++ (s.labelsText ++ ' ' :: s.value)

/-- The sample can be written as it is. -/
structure Ok (s : Sample) : Prop where
  metric : IsName s.metric
  names : ∀ l ∈ s.labels, IsName l.1
  values : ∀ l ∈ s.labels, IsPlain l.2
  value : s.value ≠ [] ∧ ' ' ∉ s.value ∧ '\n' ∉ s.value

end Sample

/-! ## Reading what was written -/

/-- A name ends where its characters do. -/
theorem name_append {n : List Char} (h : IsName n) {s : List Char}
    (hs : ∀ c ∈ s.head?, nameChar c = false) : name (n ++ s) = some (n, s) := by
  obtain ⟨hne, hchars, hhead⟩ := h
  have htake : s.takeWhile nameChar = [] := by
    cases s with
    | nil => rfl
    | cons c s => rw [List.takeWhile_cons, hs c rfl]; rfl
  have hdrop : s.dropWhile nameChar = s := by
    cases s with
    | nil => rfl
    | cons c s => rw [List.dropWhile_cons, hs c rfl]; rfl
  rw [name, List.takeWhile_append_of_pos hchars, List.dropWhile_append_of_pos hchars, htake, hdrop,
    List.append_nil]
  cases n with
  | nil => exact absurd rfl hne
  | cons c n =>
      have hc : c.isDigit = false := hhead c rfl
      simp [hc]

/-- A plain text ends at the quote. -/
theorem scan_plain {t : List Char} (h : IsPlain t) (rest : List Char) :
    Quoted.scan (t ++ '"' :: rest) = some (t, rest) := by
  induction t with
  | nil => rfl
  | cons c t ih =>
      obtain ⟨⟨hquote, hslash, -⟩, ht⟩ := List.forall_mem_cons.1 h
      rw [List.cons_append, Quoted.scan_cons hquote hslash, ih ht]
      rfl

/-- A plain text has no escapes. -/
theorem unescape_plain {t : List Char} (h : IsPlain t) : Quoted.unescape unescapeLabel t = t := by
  induction t with
  | nil => rfl
  | cons c t ih =>
      obtain ⟨⟨-, hslash, -⟩, ht⟩ := List.forall_mem_cons.1 h
      rw [Quoted.unescape_cons hslash, ih ht]

/-- A label is read back. -/
theorem label_text {l : List Char × List Char} (hname : IsName l.1) (hvalue : IsPlain l.2)
    (rest : List Char) : label (labelText l ++ rest) = some (l, rest) := by
  have hbytes : labelText l ++ rest = l.1 ++ '=' :: '"' :: (l.2 ++ '"' :: rest) := by
    simp [labelText]
  have heq : ∀ c ∈ ('=' :: '"' :: (l.2 ++ '"' :: rest)).head?, nameChar c = false := by
    rintro c hc
    rw [← Option.some.inj hc]
    decide
  rw [hbytes, label, name_append hname heq]
  simp only [Option.bind_eq_bind, Option.bind_some, scan_plain hvalue, unescape_plain hvalue]

/-- Labels are read back. -/
theorem labels_text {l : List Char × List Char} {ls : List (List Char × List Char)}
    (hnames : ∀ x ∈ l :: ls, IsName x.1) (hvalues : ∀ x ∈ l :: ls, IsPlain x.2) {n : ℕ}
    (hn : ls.length < n) (rest : List Char) :
    labels n (List.intercalate [','] ((l :: ls).map labelText) ++ '}' :: rest)
      = some (l :: ls, rest) := by
  induction ls generalizing l n with
  | nil =>
      obtain ⟨n, rfl⟩ : ∃ m, n = m + 1 := ⟨n - 1, by omega⟩
      have hlabel := label_text (hnames l List.mem_cons_self) (hvalues l List.mem_cons_self)
        ('}' :: rest)
      rw [List.map_singleton, List.intercalate_singleton, labels, hlabel]
      rfl
  | cons l' ls ih =>
      obtain ⟨n, rfl⟩ : ∃ m, n = m + 1 := ⟨n - 1, by omega⟩
      rw [List.length_cons] at hn
      have hrest := ih (fun x hx => hnames x (List.mem_cons_of_mem _ hx))
        (fun x hx => hvalues x (List.mem_cons_of_mem _ hx)) (by omega : ls.length < n)
      have hlabel := label_text (hnames l List.mem_cons_self) (hvalues l List.mem_cons_self)
        (',' :: (List.intercalate [','] ((l' :: ls).map labelText) ++ '}' :: rest))
      have hsplit : List.intercalate [','] ((l :: l' :: ls).map labelText) ++ '}' :: rest
          = labelText l
            ++ ',' :: (List.intercalate [','] ((l' :: ls).map labelText) ++ '}' :: rest) := by
        rw [List.map_cons, List.map_cons, List.intercalate_cons_cons, ← List.map_cons]
        simp
      rw [hsplit, labels, hlabel]
      simp only [Option.bind_eq_bind, Option.bind_some, hrest]

/-- A sample is read back. -/
theorem sample_text {s : Sample} (h : s.Ok) : sample s.text = some s := by
  obtain ⟨metric, ls, v⟩ := s
  have hvalue : value metric ls (' ' :: v) = some ⟨metric, ls, v⟩ :=
    if_pos ⟨h.value.1, h.value.2.1⟩
  cases ls with
  | nil =>
      have hblank : ∀ c ∈ (' ' :: v).head?, nameChar c = false := by
        rintro c hc
        rw [← Option.some.inj hc]
        decide
      have htext : Sample.text ⟨metric, [], v⟩ = metric ++ ' ' :: v := rfl
      rw [htext, sample, name_append h.metric hblank]
      exact hvalue
  | cons l ls =>
      have hbrace (t : List Char) : ∀ c ∈ ('{' :: t).head?, nameChar c = false := by
        rintro c hc
        rw [← Option.some.inj hc]
        decide
      have htext : Sample.text ⟨metric, l :: ls, v⟩
          = metric ++ '{' :: (List.intercalate [','] ((l :: ls).map labelText)
            ++ '}' :: ' ' :: v) := by
        simp [Sample.text, Sample.labelsText]
      have hshort : ls.length < (List.intercalate [','] ((l :: ls).map labelText)
          ++ '}' :: ' ' :: v).length + 1 := by
        have hle : ∀ (l : List Char × List Char) (ls : List (List Char × List Char)),
            ls.length ≤ (List.intercalate [','] ((l :: ls).map labelText)).length := by
          intro l ls
          induction ls generalizing l with
          | nil => exact Nat.zero_le _
          | cons l' ls ih =>
              have hrest := ih l'
              rw [List.map_cons] at hrest
              rw [List.map_cons, List.map_cons, List.intercalate_cons_cons]
              simp only [List.length_append, List.length_cons, List.length_nil]
              omega
        have hlen := hle l ls
        rw [List.length_append]
        omega
      rw [htext, sample, name_append h.metric (hbrace _)]
      simp only [Option.bind_eq_bind, Option.bind_some,
        labels_text h.names h.values hshort (' ' :: v)]
      exact hvalue

/-- A line with a sample. -/
theorem line_text {s : Sample} (h : s.Ok) : line s.text = some (some s) := by
  have hread := sample_text h
  obtain ⟨hne, hchars, -⟩ := h.metric
  obtain ⟨c, n, hmetric⟩ := List.exists_cons_of_ne_nil hne
  have hc : c ≠ '#' := by
    rintro rfl
    have hname := hchars '#' (by rw [hmetric]; exact List.mem_cons_self)
    exact absurd hname (by decide)
  obtain ⟨t, htext⟩ : ∃ t, s.text = c :: t := ⟨_, by rw [Sample.text, hmetric]; rfl⟩
  rw [htext] at hread ⊢
  rw [line, hread]
  · rfl
  · exact fun hnil => absurd hnil (List.cons_ne_nil c t)
  · exact fun t' hcomment => hc (List.cons.inj hcomment).1

/-- A sample is written on one line. -/
theorem not_mem_text {s : Sample} (h : s.Ok) : '\n' ∉ s.text := by
  have hname {n : List Char} (hn : IsName n) : '\n' ∉ n := fun hmem =>
    absurd (hn.2.1 _ hmem) (by decide)
  have hlabel : ∀ l ∈ s.labels, '\n' ∉ labelText l := by
    intro l hl
    have hplain : '\n' ∉ l.2 := fun hmem => (h.values l hl _ hmem).2.2 rfl
    simp [labelText, hname (h.names l hl), hplain]
  have hlabels : '\n' ∉ s.labelsText := by
    have hjoin : ∀ ls : List (List Char × List Char), (∀ l ∈ ls, '\n' ∉ labelText l) →
        '\n' ∉ List.intercalate [','] (ls.map labelText) := by
      intro ls hls
      induction ls with
      | nil => simp
      | cons l ls ih =>
          obtain ⟨hl, hls⟩ := List.forall_mem_cons.1 hls
          cases ls with
          | nil => simpa using hl
          | cons l' ls =>
              have hrest := ih hls
              rw [List.map_cons] at hrest
              rw [List.map_cons, List.map_cons, List.intercalate_cons_cons]
              simp only [List.mem_append, List.mem_singleton, not_or]
              exact ⟨⟨hl, by decide⟩, hrest⟩
    rw [Sample.labelsText]
    split_ifs
    · simp
    · simp [hjoin s.labels hlabel]
  simp [Sample.text, hname h.metric, hlabels, h.value.2.2]

/-- **A text is read line by line.** -/
theorem parse_lines {α : Type} {f : α → List Char} {g : α → Option Sample} {xs : List α}
    (hbreak : ∀ x ∈ xs, '\n' ∉ f x) (hline : ∀ x ∈ xs, line (f x) = some (g x)) :
    parse (xs.flatMap fun x => f x ++ ['\n']) = some (xs.filterMap g) := by
  have hpieces : ∀ p ∈ xs.map f, '\n' ∉ p := List.forall_mem_map.2 hbreak
  have hsplit := splitOn_flatMap_end hpieces
  rw [List.flatMap_map] at hsplit
  have hmap : (xs.map f ++ [[]]).mapM line = some (xs.map g ++ [none]) := by
    clear hsplit hpieces hbreak
    induction xs with
    | nil => rfl
    | cons x xs ih =>
        obtain ⟨hx, hxs⟩ := List.forall_mem_cons.1 hline
        rw [List.map_cons, List.cons_append, List.mapM_cons, hx, ih hxs]
        rfl
  rw [parse, hsplit, hmap]
  simp [List.filterMap_append, List.filterMap_map]

end Exposition
