/-
# The configuration, line by line

The accepted texts and what they say.  A line is accepted in the section that the headers before
it leave (`sectionAfter`): it is blank, or a header, or gives a key of that section a value of
the key's type (`Accepted`).  A text whose lines are all accepted is the defaults laid over by
its assignments, of which the last one to a field counts; any other text is rejected at its
first line that is not accepted (`fromStr_overlay`).
-/
import L4Scope.ConfigFields
import L4Scope.Trimmed

/-! ## Lines of joined texts -/

/-- A text has a line. -/
theorem splitInclusive_ne_nil {s : List Char} (h : s ≠ []) : splitInclusive s ≠ [] := by
  cases s with
  | nil => exact absurd rfl h
  | cons c s =>
      rw [splitInclusive]
      split_ifs
      · exact List.cons_ne_nil _ _
      · split <;> exact List.cons_ne_nil _ _

/-- A text that ends its last line can be continued. -/
theorem splitInclusive_append {a : List Char} (h : a.getLast? = some '\n') (b : List Char) :
    splitInclusive (a ++ b) = splitInclusive a ++ splitInclusive b := by
  induction a with
  | nil => cases h
  | cons c s ih =>
      rw [List.cons_append, splitInclusive, splitInclusive]
      rcases eq_or_ne s [] with rfl | hs
      · obtain rfl : c = '\n' := Option.some.inj h
        rfl
      · -- the text goes on after `c`, so the line that `c` is put in front of ends in `a`
        have hlast : s.getLast? = some '\n' := by
          rwa [List.getLast?_cons_of_ne_nil hs] at h
        rw [ih hlast]
        split_ifs
        · rfl
        · cases hsplit : splitInclusive s with
          | nil => exact absurd hsplit (splitInclusive_ne_nil hs)
          | cons line rest => rfl

/-- Lines end at a line break. -/
theorem lines_append {a : List Char} (h : a.getLast? = some '\n') (b : List Char) :
    lines (a ++ b) = lines a ++ lines b := by
  rw [lines, splitInclusive_append h, List.map_append, ← lines, ← lines]

/-! ## What a line says -/

/-- What is left of a line without its comment. -/
def content (raw : List Char) : List Char := trim (stripComment raw)

/-- The section that a header opens. -/
def opened (raw : List Char) : Option String :=
  (sectionHeader (content raw)).map fun name => String.ofList (trim name)

/-- The section that a line leaves. -/
def nextSection (sec : String) (raw : List Char) : String := (opened raw).getD sec

/-- The section after some lines: that of the last header. -/
def sectionAfter (sec : String) (raws : List (List Char)) : String := raws.foldl nextSection sec

section Says

variable {F : Type} (parseF64 : List Char → Option F)

/-- The field that a line assigns in its section, and the value it gives it. -/
def assignment (sec : String) (raw : List Char) : Option (Σ f : ConfigField, f.Value F) :=
  match opened raw, splitOnce '=' (content raw) with
  | none, some (k, v) =>
    (ConfigField.named sec (String.ofList (trim k))).bind fun f =>
      (f.type.read parseF64 (trim v)).toOption.map fun x => ⟨f, x⟩
  | _, _ => none

/-- The assignments of some lines, in order. -/
def assignments (sec : String) : List (List Char) → List (Σ f : ConfigField, f.Value F)
  | [] => []
  | raw :: raws => (assignment parseF64 sec raw).toList ++ assignments (nextSection sec raw) raws

/-- A line that is accepted in a section: nothing is left of it, or a header in brackets, or a
key and a value, where the section has the key and its type the value. -/
def Accepted (sec : String) (raw : List Char) : Prop :=
  content raw = [] ∨ (∃ name, content raw = '[' :: (name ++ [']'])) ∨
    ∃ (k v : List Char) (f : ConfigField) (x : f.Value F), content raw = k ++ '=' :: v ∧ '=' ∉ k ∧
      f.name = (sec, String.ofList (trim k)) ∧ f.type.read parseF64 (trim v) = .ok x

/-- Every line is accepted in its section. -/
def AllAccepted (sec : String) (raws : List (List Char)) : Prop :=
  ∀ pre raw post, raws = pre ++ raw :: post → Accepted parseF64 (sectionAfter sec pre) raw

end Says

/-! ## Reading a line -/

/-- A header is a name in brackets. -/
theorem sectionHeader_eq_some_iff {line name : List Char} :
    sectionHeader line = some name ↔ line = '[' :: (name ++ [']']) := by
  constructor
  · intro h
    obtain ⟨s, hs, hname⟩ := Option.bind_eq_some_iff.1 h
    unfold stripFirst at hs
    unfold stripLast at hname
    split_ifs at hs with hfirst
    split_ifs at hname with hlast
    obtain rfl := Option.some.inj hs
    obtain rfl := Option.some.inj hname
    rw [List.dropLast_append_getLast? _ hlast, List.cons_head?_tail hfirst]
  · rintro rfl
    rw [sectionHeader, stripFirst, List.head?_cons, if_pos rfl, Option.bind_some, List.tail_cons,
      stripLast, if_pos List.getLast?_concat, List.dropLast_concat]

/-- A header opens its section. -/
theorem opened_of_header {raw name : List Char} (h : content raw = '[' :: (name ++ [']'])) :
    opened raw = some (String.ofList (trim name)) := by
  rw [opened, sectionHeader_eq_some_iff.2 h, Option.map_some]

/-- A blank line opens none. -/
theorem opened_of_blank {raw : List Char} (h : content raw = []) : opened raw = none := by
  rw [opened, h]
  rfl

section Reading

variable {F : Type} {parseF64 : List Char → Option F} {sec : String} {raw : List Char}

/-- A line that opens a section assigns nothing. -/
theorem assignment_of_opened {name : String} (h : opened raw = some name) :
    assignment parseF64 sec raw = none := by
  rw [assignment, h]

/-- A blank line assigns nothing. -/
theorem assignment_of_blank (h : content raw = []) : assignment parseF64 sec raw = none := by
  rw [assignment, opened_of_blank h, h]
  rfl

/-- A line that opens no section assigns what is on both sides of its first `=`. -/
theorem assignment_of_split {k v : List Char} (hopen : opened raw = none)
    (hsplit : splitOnce '=' (content raw) = some (k, v)) :
    assignment parseF64 sec raw = (ConfigField.named sec (String.ofList (trim k))).bind fun f =>
      (f.type.read parseF64 (trim v)).toOption.map fun x => ⟨f, x⟩ := by
  rw [assignment, hopen, hsplit]

/-- A line that names a field and has a value for it assigns that. -/
theorem assignment_of_named {k v : List Char} {f : ConfigField} {x : f.Value F}
    (hopen : opened raw = none) (hsplit : splitOnce '=' (content raw) = some (k, v))
    (hname : f.name = (sec, String.ofList (trim k)))
    (hread : f.type.read parseF64 (trim v) = .ok x) :
    assignment parseF64 sec raw = some ⟨f, x⟩ := by
  rw [assignment_of_split hopen hsplit, ConfigField.named_eq_some_iff.2 hname, Option.bind_some,
    hread]
  rfl

variable (parseF64)

/-- The layer after a line that is accepted. -/
def Layer.after (l : Layer F) (raw : List Char) : Layer F where
  cfg := (Config.fields F).overlay l.cfg (assignment parseF64 l.sec raw).toList
  sec := nextSection l.sec raw

/-- The three kinds of lines. -/
theorem parseLine_eq (lineno : ℕ) (l : Layer F) (raw : List Char) :
    parseLine parseF64 lineno l raw =
      if content raw = [] then .ok l
      else
        match sectionHeader (content raw) with
        | some name => .ok { l with sec := String.ofList (trim name) }
        | none =>
          match splitOnce '=' (content raw) with
          | none => .error s!"line {lineno + 1}: expected key = value"
          | some (k, v) =>
            match apply parseF64 l.cfg l.sec (String.ofList (trim k)) (trim v) with
            | .ok cfg => .ok { l with cfg }
            | .error e => .error s!"line {lineno + 1}: config error: {e}" := rfl

variable {parseF64} {l : Layer F}

/-- A blank line changes nothing. -/
theorem parseLine_of_blank (lineno : ℕ) (h : content raw = []) :
    parseLine parseF64 lineno l raw = .ok (l.after parseF64 raw) := by
  rw [parseLine_eq, if_pos h, Layer.after, assignment_of_blank h, nextSection, opened_of_blank h]
  rfl

/-- A header changes the section. -/
theorem parseLine_of_header (lineno : ℕ) {name : List Char}
    (h : content raw = '[' :: (name ++ [']'])) :
    parseLine parseF64 lineno l raw = .ok (l.after parseF64 raw) := by
  have hopen := opened_of_header h
  rw [parseLine_eq, if_neg (by rw [h]; exact List.cons_ne_nil _ _), sectionHeader_eq_some_iff.2 h,
    Layer.after, assignment_of_opened hopen, nextSection, hopen]
  rfl

/-! ### Lines with a key -/

section Key

variable (hblank : content raw ≠ []) (hhead : sectionHeader (content raw) = none)

include hhead in
theorem not_header_of_none : ¬ ∃ name, content raw = '[' :: (name ++ [']']) := by
  rintro ⟨name, hname⟩
  rw [sectionHeader_eq_some_iff.2 hname] at hhead
  cases hhead

include hblank hhead

/-- Such a line needs a `=`. -/
theorem not_accepted_of_splitOnce (hsplit : splitOnce '=' (content raw) = none) :
    ¬ Accepted parseF64 sec raw := by
  rintro (h | h | ⟨k, v, f, x, hkv, -⟩)
  · exact hblank h
  · exact not_header_of_none hhead h
  · refine splitOnce_eq_none_iff.1 hsplit ?_
    rw [hkv]
    exact List.mem_append_right _ (List.mem_cons_self ..)

variable {k v : List Char} (hsplit : splitOnce '=' (content raw) = some (k, v))

include hsplit

/-- A line `k = v` is accepted if `k` names a field that can read `v`. -/
theorem accepted_iff_of_splitOnce :
    Accepted parseF64 sec raw ↔ ∃ (f : ConfigField) (x : f.Value F),
      f.name = (sec, String.ofList (trim k)) ∧ f.type.read parseF64 (trim v) = .ok x := by
  constructor
  · rintro (h | h | ⟨k', v', f, x, hkv, hk', hname, hread⟩)
    · exact absurd h hblank
    · exact absurd h (not_header_of_none hhead)
    · rw [splitOnce_eq_some_iff.2 ⟨hkv, hk'⟩] at hsplit
      cases hsplit
      exact ⟨f, x, hname, hread⟩
  · rintro ⟨f, x, hname, hread⟩
    obtain ⟨hkv, hk⟩ := splitOnce_eq_some_iff.1 hsplit
    exact Or.inr (Or.inr ⟨k, v, f, x, hkv, hk, hname, hread⟩)

/-- A line `k = v` is applied to the configuration. -/
theorem parseLine_of_splitOnce (lineno : ℕ) :
    parseLine parseF64 lineno l raw =
      match apply parseF64 l.cfg l.sec (String.ofList (trim k)) (trim v) with
      | .ok cfg => .ok { l with cfg }
      | .error e => .error s!"line {lineno + 1}: config error: {e}" := by
  rw [parseLine_eq, if_neg hblank, hhead, hsplit]

/-- The key is known and its type takes the value. -/
theorem parseLine_of_named (lineno : ℕ) {f : ConfigField} {x : f.Value F}
    (hname : f.name = (l.sec, String.ofList (trim k)))
    (hread : f.type.read parseF64 (trim v) = .ok x) :
    parseLine parseF64 lineno l raw = .ok (l.after parseF64 raw) := by
  have hopen : opened raw = none := by rw [opened, hhead, Option.map_none]
  have happly := ConfigField.apply_name parseF64 l.cfg f (trim v)
  rw [hname, hread] at happly
  rw [parseLine_of_splitOnce hblank hhead hsplit, happly, Layer.after,
    assignment_of_named hopen hsplit hname hread, nextSection, hopen]
  rfl

/-- Else `apply` fails, and the line is reported with what it says. -/
theorem apply_error_of_splitOnce (h : ¬ Accepted parseF64 l.sec raw) :
    ∃ e, apply parseF64 l.cfg l.sec (String.ofList (trim k)) (trim v) = .error e := by
  rw [accepted_iff_of_splitOnce hblank hhead hsplit] at h
  cases hnamed : ConfigField.named l.sec (String.ofList (trim k)) with
  | none => exact ⟨_, ConfigField.apply_unknown parseF64 l.cfg hnamed _⟩
  | some f =>
      have hname := ConfigField.named_eq_some_iff.1 hnamed
      have happly := ConfigField.apply_name parseF64 l.cfg f (trim v)
      rw [hname] at happly
      cases hread : f.type.read parseF64 (trim v) with
      | error e =>
          rw [hread] at happly
          exact ⟨e, happly⟩
      | ok x => exact absurd ⟨f, x, hname, hread⟩ h

end Key

/-- **A line that is accepted** lays its assignment over the configuration. -/
theorem parseLine_of_accepted (lineno : ℕ) (h : Accepted parseF64 l.sec raw) :
    parseLine parseF64 lineno l raw = .ok (l.after parseF64 raw) := by
  -- in the order of the loop's body: blank, header, key and value
  by_cases hblank : content raw = []
  · exact parseLine_of_blank lineno hblank
  cases hhead : sectionHeader (content raw) with
  | some name => exact parseLine_of_header lineno (sectionHeader_eq_some_iff.1 hhead)
  | none =>
      cases hsplit : splitOnce '=' (content raw) with
      | none => exact absurd h (not_accepted_of_splitOnce hblank hhead hsplit)
      | some kv =>
          obtain ⟨f, x, hname, hread⟩ := (accepted_iff_of_splitOnce hblank hhead hsplit).1 h
          exact parseLine_of_named hblank hhead hsplit lineno hname hread

/-- **A line that is not accepted** is reported by its number, counted from 1. -/
theorem parseLine_of_not_accepted (lineno : ℕ) (h : ¬ Accepted parseF64 l.sec raw) :
    ∃ msg : String, parseLine parseF64 lineno l raw = .error s!"line {lineno + 1}: {msg}" := by
  have hstring (s : String) : toString s = s := rfl
  have hblank : content raw ≠ [] := fun hnil => h (Or.inl hnil)
  cases hhead : sectionHeader (content raw) with
  | some name => exact absurd (Or.inr (Or.inl ⟨name, sectionHeader_eq_some_iff.1 hhead⟩)) h
  | none =>
      cases hsplit : splitOnce '=' (content raw) with
      | none =>
          refine ⟨"expected key = value", ?_⟩
          rw [parseLine_eq, if_neg hblank, hhead, hsplit]
          simp only [hstring, String.append_assoc]
          rfl
      | some kv =>
          obtain ⟨e, he⟩ := apply_error_of_splitOnce hblank hhead hsplit h
          -- the error of `apply` is shown again inside the error of the line
          refine ⟨"config error: " ++ e, ?_⟩
          rw [parseLine_of_splitOnce hblank hhead hsplit, he]
          simp only [hstring, String.append_assoc]
          rfl

/-- A line that is taken is accepted. -/
theorem accepted_of_parseLine {lineno : ℕ} {l' : Layer F}
    (h : parseLine parseF64 lineno l raw = .ok l') : Accepted parseF64 l.sec raw := by
  by_contra hnot
  obtain ⟨msg, hmsg⟩ := parseLine_of_not_accepted lineno hnot
  rw [hmsg] at h
  cases h

end Reading

/-! ## Reading a text -/

section Text

variable {F : Type} (parseF64 : List Char → Option F)

/-- The loop reads one line after another. -/
theorem parseLines_eq_readAll (lineno : ℕ) (l : Layer F) (raws : List (List Char)) :
    parseLines parseF64 lineno l raws = readAll (parseLine parseF64) lineno l raws := by
  induction raws generalizing lineno l with
  | nil => rfl
  | cons raw raws ih =>
      rw [parseLines, readAll]
      cases parseLine parseF64 lineno l raw with
      | error e => rfl
      | ok l' => exact ih (lineno + 1) l'

/-- The layer after lines that are accepted. -/
theorem foldl_after (l : Layer F) (raws : List (List Char)) :
    raws.foldl (Layer.after parseF64) l =
      { cfg := (Config.fields F).overlay l.cfg (assignments parseF64 l.sec raws)
        sec := sectionAfter l.sec raws } := by
  induction raws generalizing l with
  | nil => rfl
  | cons raw raws ih =>
      rw [List.foldl_cons, ih, assignments, Fields.overlay_append]
      rfl

variable {parseF64}

/-- All lines are accepted if each is, in the section it stands in. -/
theorem allAccepted_iff_takesAll {l : Layer F} {raws : List (List Char)} :
    AllAccepted parseF64 l.sec raws ↔
      TakesAll (fun l raw => Accepted parseF64 l.sec raw) (Layer.after parseF64) l raws := by
  unfold AllAccepted TakesAll
  simp only [foldl_after]

/-- The loop succeeds if all lines are accepted. -/
theorem parseLines_ok_iff {lineno : ℕ} {l l' : Layer F} {raws : List (List Char)} :
    parseLines parseF64 lineno l raws = .ok l' ↔
      AllAccepted parseF64 l.sec raws ∧ l' = raws.foldl (Layer.after parseF64) l := by
  rw [parseLines_eq_readAll, allAccepted_iff_takesAll]
  exact readAll_iff (fun n _ _ h => parseLine_of_accepted n h)
    fun _ _ _ _ h => accepted_of_parseLine h

/-- The lines before the one that is reported are accepted, and it is not. -/
theorem parseLines_error {lineno : ℕ} {l : Layer F} {raws : List (List Char)} {e : String}
    (h : parseLines parseF64 lineno l raws = .error e) :
    ∃ (pre : List (List Char)) (raw : List Char) (post : List (List Char)) (msg : String),
      raws = pre ++ raw :: post ∧ AllAccepted parseF64 l.sec pre ∧
      ¬ Accepted parseF64 (sectionAfter l.sec pre) raw ∧
      e = s!"line {lineno + pre.length + 1}: {msg}" := by
  rw [parseLines_eq_readAll] at h
  obtain ⟨pre, raw, post, hsplit, hpre, hraw, herr⟩ :=
    readAll_error (fun n _ _ h => parseLine_of_accepted n h)
      (fun _ _ _ _ h => accepted_of_parseLine h) h
  obtain ⟨msg, hmsg⟩ := parseLine_of_not_accepted (lineno + pre.length) hraw
  rw [hmsg] at herr
  rw [foldl_after] at hraw
  exact ⟨pre, raw, post, msg, hsplit, allAccepted_iff_takesAll.2 hpre, hraw,
    (Except.error.inj herr).symm⟩

/-- The first line, and the others in the section it leaves. -/
theorem allAccepted_cons {sec : String} {raw : List Char} {raws : List (List Char)} :
    AllAccepted parseF64 sec (raw :: raws) ↔
      Accepted parseF64 sec raw ∧ AllAccepted parseF64 (nextSection sec raw) raws := takesAll_cons

/-- The lines of two texts. -/
theorem allAccepted_append {sec : String} {as bs : List (List Char)} :
    AllAccepted parseF64 sec (as ++ bs) ↔
      AllAccepted parseF64 sec as ∧ AllAccepted parseF64 (sectionAfter sec as) bs :=
  takesAll_append

/-- The assignments of two texts. -/
theorem assignments_append (sec : String) (as bs : List (List Char)) :
    assignments parseF64 sec (as ++ bs) =
      assignments parseF64 sec as ++ assignments parseF64 (sectionAfter sec as) bs := by
  induction as generalizing sec with
  | nil => rfl
  | cons a as ih =>
      rw [List.cons_append, assignments, assignments, ih, List.append_assoc]
      rfl

/-- An assigned value fits its field. -/
theorem assignment_fits {sec : String} {raw : List Char} {a : Σ f : ConfigField, f.Value F}
    (h : assignment parseF64 sec raw = some a) : a.1.type.Fits a.2 := by
  unfold assignment at h
  split at h
  case h_1 k v _ _ =>
    obtain ⟨f, -, hvalue⟩ := Option.bind_eq_some_iff.1 h
    cases hread : f.type.read parseF64 (trim v) with
    | error e =>
        rw [hread] at hvalue
        cases hvalue
    | ok x =>
        rw [hread] at hvalue
        cases hvalue
        exact FieldType.read_fits hread
  case h_2 => cases h

/-- Assigned values fit their fields. -/
theorem assignments_fit {sec : String} {raws : List (List Char)}
    {a : Σ f : ConfigField, f.Value F} (h : a ∈ assignments parseF64 sec raws) :
    a.1.type.Fits a.2 := by
  induction raws generalizing sec with
  | nil => cases h
  | cons raw raws ih =>
      rcases List.mem_append.1 h with hraw | hrest
      · exact assignment_fits (Option.mem_toList.1 hraw)
      · exact ih hrest

/-! ### Lines that open a section -/

/-- Nothing but blank lines before a header. -/
def OpensSection (raws : List (List Char)) : Prop :=
  ∃ pre raw post, raws = pre ++ raw :: post ∧ (∀ b ∈ pre, content b = []) ∧
    ∃ name, content raw = '[' :: (name ++ [']'])

/-- A blank line leaves the section as it is. -/
theorem nextSection_of_blank {sec : String} {raw : List Char} (h : content raw = []) :
    nextSection sec raw = sec := by
  rw [nextSection, opened_of_blank h, Option.getD_none]

/-- A header names the section. -/
theorem nextSection_of_header {sec : String} {raw name : List Char}
    (h : content raw = '[' :: (name ++ [']'])) :
    nextSection sec raw = String.ofList (trim name) := by
  rw [nextSection, opened_of_header h, Option.getD_some]

/-- What such lines assign does not depend on the section before them. -/
theorem assignments_of_opensSection {raws : List (List Char)} (h : OpensSection raws)
    (sec sec' : String) : assignments parseF64 sec raws = assignments parseF64 sec' raws := by
  obtain ⟨pre, raw, post, rfl, hblank, name, hname⟩ := h
  induction pre with
  | nil =>
      have hopen := opened_of_header hname
      rw [List.nil_append, assignments, assignments, assignment_of_opened hopen,
        assignment_of_opened hopen, nextSection_of_header hname, nextSection_of_header hname]
  | cons b pre ih =>
      have hb := hblank b (List.mem_cons_self ..)
      rw [List.cons_append, assignments, assignments, assignment_of_blank hb,
        assignment_of_blank hb, nextSection_of_blank hb, nextSection_of_blank hb,
        ih fun c hc => hblank c (List.mem_cons_of_mem _ hc)]

/-- Nor does whether they are accepted. -/
theorem allAccepted_of_opensSection {raws : List (List Char)} (h : OpensSection raws)
    {sec : String} (hall : AllAccepted parseF64 sec raws) (sec' : String) :
    AllAccepted parseF64 sec' raws := by
  obtain ⟨pre, raw, post, rfl, hblank, name, hname⟩ := h
  induction pre with
  | nil =>
      obtain ⟨-, hrest⟩ := allAccepted_cons.1 hall
      refine allAccepted_cons.2 ⟨Or.inr (Or.inl ⟨name, hname⟩), ?_⟩
      rwa [nextSection_of_header hname] at hrest ⊢
  | cons b pre ih =>
      have hb := hblank b (List.mem_cons_self ..)
      obtain ⟨-, hrest⟩ := allAccepted_cons.1 hall
      rw [nextSection_of_blank hb] at hrest
      refine allAccepted_cons.2 ⟨Or.inl hb, ?_⟩
      rw [nextSection_of_blank hb]
      exact ih hrest fun c hc => hblank c (List.mem_cons_of_mem _ hc)

/-! ### The whole text -/

variable [F64 F]

/-- The texts that are accepted, and as what. -/
theorem fromStr_ok_iff {text : List Char} {cfg : Config F} :
    fromStr parseF64 text = .ok cfg ↔
      AllAccepted parseF64 "" (lines text) ∧
      cfg = (Config.fields F).overlay (Config.default F) (assignments parseF64 "" (lines text)) := by
  constructor
  · intro h
    unfold fromStr at h
    cases hlines : parseLines parseF64 0 ⟨Config.default F, ""⟩ (lines text) with
    | error e =>
        rw [hlines] at h
        cases h
    | ok l =>
        rw [hlines] at h
        cases h
        obtain ⟨hall, rfl⟩ := parseLines_ok_iff.1 hlines
        exact ⟨hall, by rw [foldl_after]⟩
  · rintro ⟨hall, rfl⟩
    let l : Layer F := ⟨Config.default F, ""⟩
    have hlines : parseLines parseF64 0 l (lines text)
        = .ok ((lines text).foldl (Layer.after parseF64) l) := parseLines_ok_iff.2 ⟨hall, rfl⟩
    rw [fromStr, hlines, foldl_after]
    rfl

/-- **The numbers of an accepted text** are in range: the defaults are, and so is all that is
read. -/
theorem fromStr_fits {text : List Char} {cfg : Config F} (h : fromStr parseF64 text = .ok cfg) :
    cfg.Fits := by
  obtain ⟨-, rfl⟩ := fromStr_ok_iff.1 h
  rw [Config.fits_iff]
  intro f
  show f.type.Fits ((Config.fields F).get f _)
  rw [Fields.get_overlay]
  cases hlast : Fields.lastValue f (assignments parseF64 "" (lines text)) with
  | none => exact Config.fits_iff.1 Config.default_fits f
  | some x => exact assignments_fit (Fields.mem_of_lastValue hlast)

/-- The overlay law: a text that ends its last line, continued by one that opens a section. -/
theorem fromStr_append {text more : List Char} {cfg cfg' : Config F}
    (hend : text.getLast? = some '\n') (hopens : OpensSection (lines more))
    (hcfg : fromStr parseF64 text = .ok cfg) (hcfg' : fromStr parseF64 more = .ok cfg') :
    fromStr parseF64 (text ++ more) =
      .ok ((Config.fields F).overlay cfg (assignments parseF64 "" (lines more))) := by
  obtain ⟨hall, rfl⟩ := fromStr_ok_iff.1 hcfg
  -- `more` was accepted from no section; here it follows the last section of `text`
  obtain ⟨hmore, -⟩ := fromStr_ok_iff.1 hcfg'
  rw [fromStr_ok_iff, lines_append hend]
  refine ⟨allAccepted_append.2 ⟨hall, allAccepted_of_opensSection hopens hmore _⟩, ?_⟩
  rw [assignments_append, Fields.overlay_append,
    assignments_of_opensSection hopens (sectionAfter "" (lines text)) ""]

/-- An error is about the first line that is not accepted. -/
theorem fromStr_error {text : List Char} {e : String} (h : fromStr parseF64 text = .error e) :
    ∃ (pre : List (List Char)) (raw : List Char) (post : List (List Char)) (msg : String),
      lines text = pre ++ raw :: post ∧ AllAccepted parseF64 "" pre ∧
      ¬ Accepted parseF64 (sectionAfter "" pre) raw ∧ e = s!"line {pre.length + 1}: {msg}" := by
  unfold fromStr at h
  cases hlines : parseLines parseF64 0 ⟨Config.default F, ""⟩ (lines text) with
  | ok l =>
      rw [hlines] at h
      cases h
  | error e' =>
      rw [hlines] at h
      cases h
      obtain ⟨pre, raw, post, msg, hrest⟩ := parseLines_error hlines
      rw [Nat.zero_add] at hrest
      exact ⟨pre, raw, post, msg, hrest⟩

end Text

/-- **A fail-fast overlay on the defaults**, of which the last assignment to a field wins.  A text
is accepted exactly if each of its lines is, in the section it is in; then each field holds what
the last line that assigns it gives, or else its default; and a text that is rejected is rejected
at the first line that is not accepted.  So a text continued by sections of another is the one
laid over by what the other assigns. -/
theorem fromStr_overlay {F : Type} [F64 F] (parseF64 : List Char → Option F) (text : List Char) :
    ((∃ cfg, fromStr parseF64 text = .ok cfg) ↔ AllAccepted parseF64 "" (lines text)) ∧
    (∀ cfg, fromStr parseF64 text = .ok cfg →
      ∀ f : ConfigField, f.get cfg =
        (Fields.lastValue f (assignments parseF64 "" (lines text))).getD
          (f.get (Config.default F))) ∧
    (∀ e, fromStr parseF64 text = .error e →
      ∃ (pre : List (List Char)) (raw : List Char) (post : List (List Char)) (msg : String),
        lines text = pre ++ raw :: post ∧ AllAccepted parseF64 "" pre ∧
        ¬ Accepted parseF64 (sectionAfter "" pre) raw ∧ e = s!"line {pre.length + 1}: {msg}") ∧
    (∀ more cfg cfg', text.getLast? = some '\n' → OpensSection (lines more) →
      fromStr parseF64 text = .ok cfg → fromStr parseF64 more = .ok cfg' →
      fromStr parseF64 (text ++ more) =
        .ok ((Config.fields F).overlay cfg (assignments parseF64 "" (lines more)))) := by
  refine ⟨⟨?_, ?_⟩, ?_, fun e h => fromStr_error h, ?_⟩
  · rintro ⟨cfg, h⟩
    exact (fromStr_ok_iff.1 h).1
  · intro h
    exact ⟨_, fromStr_ok_iff.2 ⟨h, rfl⟩⟩
  · intro cfg h
    exact (Config.fields F).eq_overlay_iff.1 (fromStr_ok_iff.1 h).2
  · intro more cfg cfg' hend hopens hcfg hcfg'
    exact fromStr_append hend hopens hcfg hcfg'

namespace Sample

/-- A base that assigns one key twice. -/
def baseText : List Char := "[detect]\nflow_ttl_secs = 9\nflow_ttl_secs = 7 # seconds\n".toList

/-- A site's own sections. -/
def siteText : List Char := "# site\n[otlp]\nenabled = true\n[ detect ]\nflow_ttl_secs = 5".toList

end Sample

/-- The site's sections are laid over the base. -/
theorem fromStr_overlay_site :
    ∃ cfg : Config ℚ,
      fromStr (fun _ => none) (Sample.baseText ++ Sample.siteText) = .ok cfg ∧
      cfg.detect.flowTtlSecs = 5 ∧ cfg.detect.handshakeTimeoutSecs = 3 ∧
      cfg.otlp.enabled = true := by
  have hblank : ∀ b ∈ ["# site".toList], content b = [] := by
    intro b hb
    obtain rfl := List.mem_singleton.1 hb
    rfl
  have hopens : OpensSection (lines Sample.siteText) :=
    ⟨["# site".toList], "[otlp]".toList,
      ["enabled = true".toList, "[ detect ]".toList, "flow_ttl_secs = 5".toList], rfl,
      hblank, "otlp".toList, rfl⟩
  obtain ⟨-, -, -, hlaw⟩ := fromStr_overlay (F := ℚ) (fun _ => none) Sample.baseText
  exact ⟨_, hlaw Sample.siteText _ _ rfl hopens rfl rfl, rfl, rfl, rfl⟩
