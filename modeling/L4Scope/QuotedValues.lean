/-
# Quoted values

A line `key = "v"` of the configuration gives `v` to its field, whatever `v` is: blanks, `=` and
quotes between the quotes are all kept.  All but `#`: a comment is cut off before anything looks
at the quotes, so that a value with a `#` comes out as its beginning, and no error is reported
(`quoted_iff`).
-/
import L4Scope.ConfigLines

/-! ## Texts of fields -/

section FieldText

variable {F : Type}

/-- The text that a value is, if it is one. -/
def FieldType.toText : (t : FieldType) → t.Value F → Option String
  | text, s => some s
  | backend, _ | u64, _ | u32, _ | f64, _ | bool, _ => none

/-- A text field takes every value. -/
theorem FieldType.read_text (parseF64 : List Char → Option F) {t : FieldType} (ht : t = .text)
    (val : List Char) :
    ∃ x : t.Value F, t.read parseF64 val = .ok x ∧ t.toText x = some (unquote val) := by
  subst ht
  exact ⟨unquote val, rfl, rfl⟩

end FieldText

/-! ## Keys -/

namespace ConfigField

/-- The characters of a key are in nobody's way. -/
theorem key_plain (f : ConfigField) :
    ∀ c ∈ f.name.2.toList, isWhitespace c = false ∧ c ≠ '#' ∧ c ≠ '=' ∧ c ≠ '[' := by
  have hall : (f.name.2.toList.all fun c =>
      !isWhitespace c && c != '#' && c != '=' && c != '[') = true := by
    cases f <;> rfl
  intro c hc
  simpa [and_assoc] using List.all_eq_true.1 hall c hc

/-- A key is not empty. -/
theorem key_cons (f : ConfigField) : ∃ c s, f.name.2.toList = c :: s := by
  cases f <;> exact ⟨_, _, rfl⟩

end ConfigField

/-! ## Unquoting -/

/-- A quote is no white space, so that a text between quotes is trimmed already. -/
theorem trim_quoted (v : List Char) : trim ('"' :: (v ++ ['"'])) = '"' :: (v ++ ['"']) := by
  have hquote : isWhitespace '"' = false := by decide
  have h := trim_append_cons hquote [] (v ++ ['"'])
  rwa [List.nil_append, List.dropWhile_nil, List.nil_append,
    List.rdropWhile_concat_neg _ _ _ (by rw [hquote]; exact Bool.false_ne_true)] at h

/-- Quotes come off. -/
theorem unquote_quoted (v : List Char) : unquote ('"' :: (v ++ ['"'])) = String.ofList v := by
  have hlen : 2 ≤ ('"' :: (v ++ ['"'])).length := by simp
  have hlast : ('"' :: (v ++ ['"'])).getLast? = some '"' := by
    rw [← List.cons_append, List.getLast?_concat]
  unfold unquote
  dsimp only
  rw [trim_quoted, if_pos ⟨hlen, rfl, hlast⟩, List.tail_cons, List.dropLast_concat]

/-! ## Quoted lines -/

/-- The line `key = "v"`. -/
def quotedLine (key : String) (v : List Char) : List Char :=
  key.toList ++ ' ' :: '=' :: ' ' :: '"' :: (v ++ ['"'])

/-- What is read of the value after its opening quote. -/
def kept (v : List Char) : List Char := (stripComment (v ++ ['"'])).rdropWhile isWhitespace

/-- Without a `#` everything is kept. -/
theorem kept_of_not_mem {v : List Char} (h : '#' ∉ v) : kept v = v ++ ['"'] := by
  have hall : ∀ c ∈ v ++ ['"'], decide (c ≠ '#') = true := by
    intro c hc
    rw [decide_eq_true_eq]
    rintro rfl
    rcases List.mem_append.1 hc with hv | hq
    · exact h hv
    · exact absurd (List.mem_singleton.1 hq) (by decide)
  rw [kept, stripComment, List.takeWhile_eq_self_iff.2 hall,
    List.rdropWhile_concat_neg _ _ _ (by decide)]

/-- No `#` is kept. -/
theorem not_mem_kept (v : List Char) : '#' ∉ kept v := by
  intro h
  have hmem : '#' ∈ stripComment (v ++ ['"']) := (List.rdropWhile_prefix _ _).subset h
  exact absurd (List.mem_takeWhile_imp hmem) (by decide)

/-- **What survives the quotes**: everything, if there is no `#`. -/
theorem unquote_kept_iff (v : List Char) :
    unquote ('"' :: kept v) = String.ofList v ↔ '#' ∉ v := by
  constructor
  · -- what is read has no `#`, whatever unquoting makes of the cut text
    intro h hmem
    have hread : '#' ∈ (unquote ('"' :: kept v)).toList := by rwa [h, String.toList_ofList]
    rcases List.mem_cons.1 (mem_of_mem_unquote hread) with hq | hk
    · exact absurd hq (by decide)
    · exact not_mem_kept v hk
  · intro h
    rw [kept_of_not_mem h, unquote_quoted]

section Line

variable (f : ConfigField) (v : List Char)

/-- What is left of the line. -/
theorem content_quotedLine :
    content (quotedLine f.name.2 v) =
      f.name.2.toList ++ ' ' :: '=' :: ' ' :: '"' :: kept v := by
  have hkey : ∀ c ∈ f.name.2.toList, decide (c ≠ '#') = true :=
    fun c hc => decide_eq_true (f.key_plain c hc).2.1
  -- the first `#` is in `v` or nowhere
  have hcut : stripComment (quotedLine f.name.2 v) =
      (f.name.2.toList ++ [' ', '=', ' ']) ++ '"' :: stripComment (v ++ ['"']) := by
    rw [stripComment, quotedLine, List.takeWhile_append_of_pos hkey, List.append_assoc]
    rfl
  have hstart : (f.name.2.toList ++ [' ', '=', ' ']).dropWhile isWhitespace =
      f.name.2.toList ++ [' ', '=', ' '] := by
    obtain ⟨c, s, hcs⟩ := f.key_cons
    have hc := (f.key_plain c (by rw [hcs]; exact List.mem_cons_self ..)).1
    rw [hcs, List.cons_append, List.dropWhile_cons_of_neg (by rw [hc]; exact Bool.false_ne_true)]
  rw [content, hcut, trim_append_cons (by decide), hstart, List.append_assoc]
  rfl

/-- The line is no header: no key starts with a bracket. -/
theorem opened_quotedLine : opened (quotedLine f.name.2 v) = none := by
  rw [opened, Option.map_eq_none_iff]
  cases hhead : sectionHeader (content (quotedLine f.name.2 v)) with
  | none => rfl
  | some name =>
      have hheader := sectionHeader_eq_some_iff.1 hhead
      obtain ⟨c, s, hcs⟩ := f.key_cons
      rw [content_quotedLine, hcs, List.cons_append] at hheader
      obtain ⟨rfl, -⟩ := List.cons.inj hheader
      exact absurd rfl (f.key_plain '[' (by rw [hcs]; exact List.mem_cons_self ..)).2.2.2

/-- It is split at its first `=`. -/
theorem splitOnce_quotedLine :
    splitOnce '=' (content (quotedLine f.name.2 v)) =
      some (f.name.2.toList ++ [' '], ' ' :: '"' :: kept v) := by
  rw [splitOnce_eq_some_iff, content_quotedLine]
  refine ⟨by rw [List.append_assoc]; rfl, fun hmem => ?_⟩
  rcases List.mem_append.1 hmem with hk | hs
  · exact (f.key_plain '=' hk).2.2.1 rfl
  · exact absurd (List.mem_singleton.1 hs) (by decide)

/-- The key without blanks. -/
theorem trim_key : trim (f.name.2.toList ++ [' ']) = f.name.2.toList := by
  have hplain (c : Char) (hc : c ∈ f.name.2.toList) : ¬ isWhitespace c = true := by
    rw [(f.key_plain c hc).1]
    exact Bool.false_ne_true
  have hfront : f.name.2.toList.dropWhile isWhitespace = f.name.2.toList :=
    List.dropWhile_eq_self_iff.2 fun _ => hplain _ (List.getElem_mem _)
  have hback : f.name.2.toList.rdropWhile isWhitespace = f.name.2.toList :=
    List.rdropWhile_eq_self_iff.2 fun hne => hplain _ (List.getLast_mem hne)
  rw [← trim_rdropWhile, List.rdropWhile_concat_pos _ _ _ (by decide), hback, trim, hfront, hback]

/-- The value without blanks. -/
theorem trim_value : trim (' ' :: '"' :: kept v) = '"' :: kept v := by
  have h := trim_append_cons (c := '"') (by decide) [' '] (kept v)
  rw [kept, List.rdropWhile_idempotent, ← kept] at h
  exact h

end Line

/-! ## Quoted values in a text -/

section Quoted

variable {F : Type} (parseF64 : List Char → Option F) {f : ConfigField} (hf : f.type = .text)

include hf

/-- The line assigns the field what is read of the value. -/
theorem exists_assignment_quotedLine (v : List Char) :
    Accepted parseF64 f.name.1 (quotedLine f.name.2 v) ∧
      ∃ x : f.Value F, assignment parseF64 f.name.1 (quotedLine f.name.2 v) = some ⟨f, x⟩ ∧
        f.type.toText x = some (unquote ('"' :: kept v)) := by
  obtain ⟨x, hread, hx⟩ := FieldType.read_text parseF64 hf ('"' :: kept v)
  rw [← trim_value] at hread
  have hsplit := splitOnce_quotedLine f v
  have hname : f.name = (f.name.1, String.ofList (trim (f.name.2.toList ++ [' ']))) := by
    rw [trim_key, String.ofList_toList]
  obtain ⟨hkv, hk⟩ := splitOnce_eq_some_iff.1 hsplit
  exact ⟨Or.inr (Or.inr ⟨_, _, f, x, hkv, hk, hname, hread⟩), x,
    assignment_of_named (opened_quotedLine f v) hsplit hname hread, hx⟩

/-- A valid text stays valid with the line in its section. -/
theorem allAccepted_insert {v : List Char} {before after : List (List Char)}
    (hsec : sectionAfter "" before = f.name.1) (h : AllAccepted parseF64 "" (before ++ after)) :
    AllAccepted parseF64 "" (before ++ quotedLine f.name.2 v :: after) := by
  obtain ⟨hbefore, hafter⟩ := allAccepted_append.1 h
  refine allAccepted_append.2 ⟨hbefore, allAccepted_cons.2 ⟨?_, ?_⟩⟩
  · rw [hsec]
    exact (exists_assignment_quotedLine parseF64 hf v).1
  · rwa [nextSection, opened_quotedLine, Option.getD_none]

/-- The field's last value is that of a later line, or that of the line. -/
theorem lastValue_insert (v : List Char) {before : List (List Char)} (after : List (List Char))
    (hsec : sectionAfter "" before = f.name.1) :
    ∃ x : f.Value F, f.type.toText x = some (unquote ('"' :: kept v)) ∧
      Fields.lastValue f (assignments parseF64 "" (before ++ quotedLine f.name.2 v :: after)) =
        some ((Fields.lastValue f (assignments parseF64 f.name.1 after)).getD x) := by
  obtain ⟨-, x, hassign, hx⟩ := exists_assignment_quotedLine parseF64 hf v
  refine ⟨x, hx, ?_⟩
  rw [assignments_append, hsec, assignments, hassign, nextSection, opened_quotedLine,
    Option.getD_none, Option.toList_some, Fields.lastValue_append, Fields.lastValue_append,
    Fields.lastValue_singleton, Fields.valueOf_self]
  cases Fields.lastValue f (assignments parseF64 f.name.1 after) <;> rfl

end Quoted

/-- The text that a field holds, if it holds one. -/
def ConfigField.text {F : Type} (f : ConfigField) (cfg : Config F) : Option String :=
  f.type.toText (f.get cfg)

/-- **What becomes of a quoted value.**  The line `key = "v"` stands anywhere in its section of a
text that is valid without it.  If no later line assigns the key again, then the field holds `v`
exactly if there is no `#` in it; if one does, the last of them has the say. -/
theorem quoted_iff {F : Type} [F64 F] (parseF64 : List Char → Option F) {f : ConfigField}
    (hf : f.type = .text) (v : List Char) {text rest : List Char} {before after : List (List Char)}
    (hline : lines text = before ++ quotedLine f.name.2 v :: after)
    (hsec : sectionAfter "" before = f.name.1) (hrest : lines rest = before ++ after)
    (hvalid : ∃ cfg, fromStr parseF64 rest = .ok cfg) :
    (∃ cfg, fromStr parseF64 text = .ok cfg ∧ f.text cfg = some (String.ofList v)) ↔
      match Fields.lastValue f (assignments parseF64 f.name.1 after) with
      | none => '#' ∉ v
      | some x => f.type.toText x = some (String.ofList v) := by
  obtain ⟨cfg₀, hcfg₀⟩ := hvalid
  have hall := (fromStr_ok_iff.1 hcfg₀).1
  rw [hrest] at hall
  have hall' := allAccepted_insert parseF64 hf (v := v) hsec hall
  rw [← hline] at hall'
  obtain ⟨x, hx, hlast⟩ := lastValue_insert parseF64 hf v after hsec
  rw [← hline] at hlast
  have hget {cfg : Config F} (hcfg : fromStr parseF64 text = .ok cfg) :
      f.get cfg = (Fields.lastValue f (assignments parseF64 f.name.1 after)).getD x := by
    have h := (Config.fields F).eq_overlay_iff.1 (fromStr_ok_iff.1 hcfg).2 f
    rwa [hlast, Option.getD_some] at h
  -- accepted in any case, so that only the value is in question
  have hiff : (∃ cfg, fromStr parseF64 text = .ok cfg ∧ f.text cfg = some (String.ofList v)) ↔
      f.type.toText ((Fields.lastValue f (assignments parseF64 f.name.1 after)).getD x) =
        some (String.ofList v) := by
    constructor
    · rintro ⟨cfg, hcfg, htext⟩
      rwa [ConfigField.text, hget hcfg] at htext
    · intro h
      have hcfg := fromStr_ok_iff.2 ⟨hall', rfl⟩
      exact ⟨_, hcfg, by rwa [ConfigField.text, hget hcfg]⟩
  rw [hiff]
  cases Fields.lastValue f (assignments parseF64 f.name.1 after) with
  | some y => rfl
  | none => rw [Option.getD_none, hx, Option.some_inj, unquote_kept_iff]

namespace Sample

/-- A configuration with the value in quotes, between two lines. -/
def headersText (v : String) : List Char :=
  ("[otlp]\r\nheaders = \"" ++ v ++ "\"\r\n[detect]\nflow_ttl_secs = 7").toList

end Sample

/-- Quotes, blanks and `=` are kept. -/
theorem quoted_iff_headers :
    ∃ cfg : Config ℚ, fromStr (fun _ => none) (Sample.headersText "k = \"v\", ") = .ok cfg ∧
      ConfigField.headers.text cfg = some "k = \"v\", " := by
  have hline : lines (Sample.headersText "k = \"v\", ") = ["[otlp]".toList] ++
      quotedLine ConfigField.headers.name.2 "k = \"v\", ".toList ::
        ["[detect]".toList, "flow_ttl_secs = 7".toList] := rfl
  have hrest : lines "[otlp]\n[detect]\nflow_ttl_secs = 7".toList = ["[otlp]".toList] ++
      ["[detect]".toList, "flow_ttl_secs = 7".toList] := rfl
  have hplain : '#' ∉ "k = \"v\", ".toList := by decide
  exact (quoted_iff _ rfl _ hline rfl hrest ⟨_, rfl⟩).2 hplain

/-- A `#` between the quotes cuts the value short, the opening quote included, and the text is
accepted. -/
theorem headers_cut :
    lines (Sample.headersText "k=a#b") =
        ["[otlp]".toList, quotedLine "headers" "k=a#b".toList, "[detect]".toList,
          "flow_ttl_secs = 7".toList] ∧
      ∃ cfg : Config ℚ, fromStr (fun _ => none) (Sample.headersText "k=a#b") = .ok cfg ∧
        cfg.otlp.headers = "\"k=a" ∧ cfg.otlp.headers ≠ "k=a#b" := by
  refine ⟨rfl, _, rfl, rfl, ?_⟩
  decide
