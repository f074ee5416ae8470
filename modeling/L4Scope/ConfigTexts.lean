/-
# The texts of a configuration

A value is part of one line, so a text that is read from a configuration has no LF in it, and no
other character that the configuration has not (`fromStr_texts`).
-/
import L4Scope.ConfigLines

/-! ## Lines -/

/-- A line is part of the text, with a line break at its end at most. -/
theorem of_mem_splitInclusive {text line : List Char} (h : line ∈ splitInclusive text) :
    line ≠ [] ∧ (∀ c ∈ line, c ∈ text) ∧ '\n' ∉ line.dropLast := by
  induction text generalizing line with
  | nil => cases h
  | cons c s ih =>
      rw [splitInclusive] at h
      split_ifs at h with hc
      · rcases List.mem_cons.1 h with rfl | h
        · exact ⟨List.cons_ne_nil _ _, by simp, by simp⟩
        · obtain ⟨hne, hmem, hlast⟩ := ih h
          exact ⟨hne, fun x hx => List.mem_cons_of_mem c (hmem x hx), hlast⟩
      · split at h
        case h_1 hrest =>
          obtain rfl := List.mem_singleton.1 h
          exact ⟨List.cons_ne_nil _ _, by simp, by simp⟩
        case h_2 first rest hrest =>
          rcases List.mem_cons.1 h with rfl | h
          · obtain ⟨hne, hmem, hlast⟩ := ih (hrest ▸ List.mem_cons_self)
            refine ⟨List.cons_ne_nil _ _, ?_, ?_⟩
            · intro x hx
              rcases List.mem_cons.1 hx with rfl | hx
              · exact List.mem_cons_self
              · exact List.mem_cons_of_mem c (hmem x hx)
            · rw [List.dropLast_cons_of_ne_nil hne, List.mem_cons, not_or]
              exact ⟨Ne.symm hc, hlast⟩
          · obtain ⟨hne, hmem, hlast⟩ := ih (hrest ▸ List.mem_cons_of_mem first h)
            exact ⟨hne, fun x hx => List.mem_cons_of_mem c (hmem x hx), hlast⟩

/-- Stripping adds nothing. -/
theorem mem_of_mem_stripLast {c x : Char} {s t : List Char} (h : stripLast c s = some t)
    (hx : x ∈ t) : x ∈ s := by
  unfold stripLast at h
  split_ifs at h
  rw [← Option.some.inj h] at hx
  exact (List.dropLast_sublist _).subset hx

/-- The characters of a line are those of the text; the ending is not among them. -/
theorem of_mem_lines {text line : List Char} (h : line ∈ lines text) {c : Char} (hc : c ∈ line) :
    c ∈ text ∧ c ≠ '\n' := by
  obtain ⟨l, hl, rfl⟩ := List.mem_map.1 h
  obtain ⟨hne, hmem, hlast⟩ := of_mem_splitInclusive hl
  rw [stripEnding] at hc
  cases hstrip : stripLast '\n' l with
  | none =>
      rw [hstrip] at hc
      refine ⟨hmem c hc, ?_⟩
      rintro rfl
      -- a LF could stand at the end only, and there is none
      unfold stripLast at hstrip
      split_ifs at hstrip with hend
      rw [← List.dropLast_append_getLast hne] at hc
      rcases List.mem_append.1 hc with hc | hc
      · exact hlast hc
      · rw [List.getLast?_eq_some_getLast hne] at hend
        exact hend (congrArg some (List.mem_singleton.1 hc).symm)
  | some l' =>
      rw [hstrip] at hc
      have hinner : c ∈ l' := by
        simp only at hc
        cases hcr : stripLast '\r' l' with
        | none => rwa [hcr, Option.getD_none] at hc
        | some l'' =>
            rw [hcr, Option.getD_some] at hc
            exact mem_of_mem_stripLast hcr hc
      refine ⟨hmem c (mem_of_mem_stripLast hstrip hinner), ?_⟩
      rintro rfl
      unfold stripLast at hstrip
      split_ifs at hstrip
      rw [← Option.some.inj hstrip] at hinner
      exact hlast hinner

/-! ## Values -/

section Texts

variable {F : Type} {P : Char → Prop} {parseF64 : List Char → Option F}

/-- A text is made of characters with the property. -/
def FieldType.Texts (P : Char → Prop) : (t : FieldType) → t.Value F → Prop
  | text, s => ∀ c ∈ s.toList, P c
  | backend, _ | u64, _ | u32, _ | f64, _ | bool, _ => True

/-- A weaker property. -/
theorem FieldType.Texts.mono {Q : Char → Prop} (h : ∀ c, P c → Q c) {t : FieldType}
    {x : t.Value F} (hx : t.Texts P x) : t.Texts Q x := by
  cases t with
  | text => exact fun c hc => h c (hx c hc)
  | backend => trivial
  | u64 => trivial
  | u32 => trivial
  | f64 => trivial
  | bool => trivial

/-- A text is read from the characters of its value. -/
theorem FieldType.read_texts {t : FieldType} {val : List Char} {x : t.Value F}
    (h : t.read parseF64 val = .ok x) (hval : ∀ c ∈ val, P c) : t.Texts P x := by
  cases t with
  | text =>
      obtain rfl := Except.ok.inj h
      exact fun c hc => hval c (mem_of_mem_unquote hc)
  | backend => trivial
  | u64 => trivial
  | u32 => trivial
  | f64 => trivial
  | bool => trivial

/-- A text that a line assigns comes from the line. -/
theorem assignment_texts {sec : String} {raw : List Char} {a : Σ f : ConfigField, f.Value F}
    (h : assignment parseF64 sec raw = some a) (hraw : ∀ c ∈ raw, P c) :
    a.1.type.Texts P a.2 := by
  unfold assignment at h
  split at h
  case h_1 k v _ hsplit =>
    obtain ⟨f, -, hvalue⟩ := Option.bind_eq_some_iff.1 h
    obtain ⟨hcontent, -⟩ := splitOnce_eq_some_iff.1 hsplit
    have hv : ∀ c ∈ trim v, P c := by
      intro c hc
      have hline : c ∈ content raw := by
        rw [hcontent]
        exact List.mem_append_right _ (List.mem_cons_of_mem _ (mem_of_mem_trim hc))
      exact hraw c ((List.takeWhile_sublist _).subset (mem_of_mem_trim hline))
    cases hread : f.type.read parseF64 (trim v) with
    | error e =>
        rw [hread] at hvalue
        cases hvalue
    | ok x =>
        rw [hread] at hvalue
        cases hvalue
        exact FieldType.read_texts hread hv
  case h_2 => cases h

/-- Assigned texts come from the lines. -/
theorem assignments_texts {sec : String} {raws : List (List Char)}
    {a : Σ f : ConfigField, f.Value F} (h : a ∈ assignments parseF64 sec raws)
    (hraws : ∀ raw ∈ raws, ∀ c ∈ raw, P c) : a.1.type.Texts P a.2 := by
  induction raws generalizing sec with
  | nil => cases h
  | cons raw raws ih =>
      obtain ⟨hraw, hrest⟩ := List.forall_mem_cons.1 hraws
      rcases List.mem_append.1 h with hfirst | hmore
      · exact assignment_texts (Option.mem_toList.1 hfirst) hraw
      · exact ih hmore hrest

/-- **The texts of a configuration** are made of the characters of the text it is read from, and
of those of the defaults; a LF is not among the former. -/
theorem fromStr_texts [F64 F] {text : List Char} {cfg : Config F}
    (h : fromStr parseF64 text = .ok cfg)
    (hdefault : ∀ f : ConfigField, f.type.Texts P (f.get (Config.default F)))
    (htext : ∀ c ∈ text, c ≠ '\n' → P c) (f : ConfigField) : f.type.Texts P (f.get cfg) := by
  obtain ⟨-, rfl⟩ := fromStr_ok_iff.1 h
  show f.type.Texts P ((Config.fields F).get f _)
  rw [Fields.get_overlay]
  cases hlast : Fields.lastValue f (assignments parseF64 "" (lines text)) with
  | none => exact hdefault f
  | some x =>
      refine assignments_texts (Fields.mem_of_lastValue hlast) fun raw hraw c hc => ?_
      obtain ⟨hmem, hne⟩ := of_mem_lines hraw hc
      exact htext c hmem hne

end Texts
