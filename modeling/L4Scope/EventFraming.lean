/-
# The framing of the event log

The log is one line for each event, and every line a JSON object whose last member is the free
text of the event.  Nothing an event can hold breaks a line (`noBreak_toJson`): addresses, names
and numbers are plain, and the free text is escaped.  So the log splits into its lines again, and
the free text can be read back from each of them (`ndjson_framing`).

The text of a floating-point number is a parameter; that it holds no line break is assumed.
-/
import L4Scope.EventJson
import L4Scope.QuotedText

/-! ## The characters of an address -/

section Letters

variable {P : Char → Prop}

/-- Two texts, one behind the other. -/
theorem forall_mem_append {s t : String} (hs : ∀ c ∈ s.toList, P c) (ht : ∀ c ∈ t.toList, P c) :
    ∀ c ∈ (s ++ t).toList, P c := by
  rw [String.toList_append, List.forall_mem_append]
  exact ⟨hs, ht⟩

/-- Texts with a separator between them. -/
theorem forall_mem_intercalate {sep : String} {ss : List String} (hsep : ∀ c ∈ sep.toList, P c)
    (h : ∀ s ∈ ss, ∀ c ∈ s.toList, P c) : ∀ c ∈ (sep.intercalate ss).toList, P c := by
  induction ss with
  | nil => simp
  | cons s ss ih =>
      rw [List.forall_mem_cons] at h
      by_cases hss : ss = []
      · rw [hss, String.intercalate_singleton]
        exact h.1
      · rw [String.intercalate_cons_of_ne_nil hss]
        exact forall_mem_append (forall_mem_append h.1 hsep) (ih h.2)

/-- A number is written in digits. -/
theorem forall_mem_toDigits {b : ℕ} (hb : 1 < b) (hdigit : ∀ d < b, P d.digitChar) (n : ℕ) :
    ∀ c ∈ Nat.toDigits b n, P c := by
  induction n using Nat.strong_induction_on with
  | _ n ih =>
      by_cases hlt : n < b
      · rw [Nat.toDigits_of_lt_base hlt, List.forall_mem_singleton]
        exact hdigit n hlt
      · rw [Nat.toDigits_of_base_le hb (by omega), List.forall_mem_append,
          List.forall_mem_singleton]
        exact ⟨ih (n / b) (Nat.div_lt_self (by omega) hb), hdigit _ (Nat.mod_lt n (by omega))⟩

variable (hdigit : ∀ d < 16, P d.digitChar)

include hdigit

/-- A number in decimal. -/
theorem forall_mem_nat (n : ℕ) : ∀ c ∈ (toString n).toList, P c := by
  rw [Nat.toString_eq_ofList_toDigits, String.toList_ofList]
  exact forall_mem_toDigits (by decide) (fun d hd => hdigit d (by omega)) n

/-- An IPv4 address is written in digits and dots. -/
theorem forall_mem_ipv4Text (hdot : P '.') (o : Bytes) : ∀ c ∈ (ipv4Text o).toList, P c := by
  have hsep : ∀ c ∈ ".".toList, P c := by simpa using hdot
  apply forall_mem_intercalate hsep
  rw [List.forall_mem_map]
  exact fun b _ => forall_mem_nat hdigit b.toNat

/-- An IPv6 address is written in hexadecimal digits, dots and colons. -/
theorem forall_mem_ipv6Text (hdot : P '.') (hcolon : P ':') (o : Octets 16) :
    ∀ c ∈ (ipv6Text o).toList, P c := by
  have hsep : ∀ c ∈ ":".toList, P c := by simpa using hcolon
  have hgap : ∀ c ∈ "::".toList, P c := by simpa using hcolon
  have hgroups (segs : List ℕ) : ∀ c ∈ (hexGroups segs).toList, P c := by
    apply forall_mem_intercalate hsep
    rw [List.forall_mem_map]
    intro s _
    rw [String.toList_ofList]
    exact forall_mem_toDigits (by decide) hdigit s
  have hmapped : ∀ c ∈ "::ffff:".toList, P c := by
    have hf : P 'f' := hdigit 15 (by decide)
    simp [hcolon, hf]
  rw [ipv6Text]
  split_ifs
  · exact forall_mem_append hmapped (forall_mem_ipv4Text hdigit hdot _)
  · dsimp only
    split_ifs
    · exact forall_mem_append (forall_mem_append (hgroups _) hgap) (hgroups _)
    · exact hgroups _

/-- An endpoint is written in hexadecimal digits, dots, colons and brackets. -/
theorem forall_mem_endpoint (hdot : P '.') (hcolon : P ':') (hopen : P '[') (hclose : P ']')
    (e : Endpoint) : ∀ c ∈ (toString e).toList, P c := by
  have hleft : ∀ c ∈ "[".toList, P c := by simpa using hopen
  have hsep : ∀ c ∈ ":".toList, P c := by simpa using hcolon
  have hright : ∀ c ∈ "]:".toList, P c := by simp [hclose, hcolon]
  rcases e with ⟨o | o, port⟩
  · have hip := forall_mem_ipv4Text hdigit hdot o.1
    exact forall_mem_append (forall_mem_append hip hsep) (forall_mem_nat hdigit _)
  · have hip := forall_mem_ipv6Text hdigit hdot hcolon o
    have hbody := forall_mem_append (forall_mem_append hleft hip) hright
    exact forall_mem_append hbody (forall_mem_nat hdigit _)

end Letters

/-! ## Texts without line breaks -/

/-- No LF and no CR. -/
def NoBreak (t : List Char) : Prop := '\n' ∉ t ∧ '\r' ∉ t

instance (t : List Char) : Decidable (NoBreak t) := by unfold NoBreak; infer_instance

namespace NoBreak

/-- A text in two parts. -/
theorem append {s t : List Char} (hs : NoBreak s) (ht : NoBreak t) : NoBreak (s ++ t) := by
  simp only [NoBreak, List.mem_append, not_or]
  exact ⟨⟨hs.1, ht.1⟩, hs.2, ht.2⟩

theorem string_append {s t : String} (hs : NoBreak s.toList) (ht : NoBreak t.toList) :
    NoBreak (s ++ t).toList := by
  rw [String.toList_append]
  exact hs.append ht

/-- Characters from the space on break no line. -/
theorem of_forall_le {t : List Char} (h : ∀ c ∈ t, ' ' ≤ c) : NoBreak t :=
  ⟨fun hc => absurd (h _ hc) (by decide), fun hc => absurd (h _ hc) (by decide)⟩

/-- A number breaks no line. -/
theorem nat (n : ℕ) : NoBreak (toString n).toList :=
  of_forall_le (forall_mem_nat (by decide) n)

end NoBreak

/-! ## What an event can hold -/

/-- An endpoint breaks no line. -/
theorem noBreak_endpoint (e : Endpoint) : NoBreak (toString e).toList := by
  apply NoBreak.of_forall_le
  exact forall_mem_endpoint (by decide) (by decide) (by decide) (by decide) (by decide) e

/-- A kind breaks no line. -/
theorem noBreak_kind (k : EventKind) : NoBreak k.asStr.toList := by
  cases k <;> decide

/-- Nor does a severity. -/
theorem noBreak_severity (s : Severity) : NoBreak s.asStr.toList := by
  cases s <;> decide

/-- Nor does a protocol. -/
theorem noBreak_proto (p : Protocol) : NoBreak p.asStr.toList := by
  cases p <;> decide

/-! ## The escapes -/

/-- What an escape stands for. -/
def unescapeChar (c : Char) : Char :=
  match c with
  | 'n' => '\n'
  | 't' => '\t'
  | 'r' => '\r'
  | c => c

/-- A quote or a backslash never stands alone, and each of the five escapes can be undone. -/
theorem escapes_escapeChar : Quoted.Escapes escapeChar unescapeChar := by
  intro c
  unfold escapeChar
  split
  -- the last arm is every character that stands for itself
  case h_6 hquote hslash _ _ _ => exact Or.inl ⟨rfl, hquote, hslash⟩
  all_goals exact Or.inr ⟨_, rfl, rfl⟩

/-- No escaped character breaks the line. -/
theorem noBreak_jsonEscape (s : String) : NoBreak (jsonEscape s).toList := by
  have hpiece (c : Char) : NoBreak (escapeChar c) := by
    unfold escapeChar
    split
    case h_6 hlf _ hcr =>
      simp only [NoBreak, List.mem_singleton]
      exact ⟨Ne.symm hlf, Ne.symm hcr⟩
    all_goals decide
  rw [jsonEscape, String.toList_ofList]
  simp only [NoBreak, List.mem_flatMap, not_exists, not_and]
  exact ⟨fun c _ => (hpiece c).1, fun c _ => (hpiece c).2⟩

/-! ## The line -/

section Line

variable {F : Type} [F64 F]

/-- The line up to the free text, which it does not depend on. -/
def L4Event.jsonHead (ev : L4Event F) : List Char :=
  ("\x7b\"ts_ns\":" ++ toString ev.tsNanos ++ ",\"kind\":\"" ++ ev.kind.asStr
    ++ "\",\"severity\":\"" ++ ev.severity.asStr ++ "\",\"proto\":\"" ++ ev.key.proto.asStr
    ++ "\",\"low\":\"" ++ toString ev.key.low ++ "\",\"high\":\"" ++ toString ev.key.high
    ++ "\",\"value\":" ++ F64.fixed 3 ev.value ++ ",\"detail\":\"").toList

/-- The free text stands last on the line. -/
theorem toList_toJson (ev : L4Event F) :
    ev.toJson.toList = ev.jsonHead ++ ((jsonEscape ev.detail).toList ++ ['"', '}']) := by
  have hend : ("\"\x7d" : String).toList = ['"', '}'] := rfl
  unfold L4Event.toJson L4Event.jsonHead
  simp only [String.toList_append, List.append_assoc, hend]

variable (hnum : ∀ x : F, NoBreak (F64.fixed 3 x).toList)

include hnum

/-- What is in front of it breaks no line. -/
theorem noBreak_jsonHead (ev : L4Event F) : NoBreak ev.jsonHead := by
  have hts := NoBreak.nat ev.tsNanos
  have hkind := noBreak_kind ev.kind
  have hseverity := noBreak_severity ev.severity
  have hproto := noBreak_proto ev.key.proto
  have hlow := noBreak_endpoint ev.key.low
  have hhigh := noBreak_endpoint ev.key.high
  have hvalue := hnum ev.value
  -- the pieces from the last to the first
  refine NoBreak.string_append ?_ (by decide)
  refine NoBreak.string_append ?_ hvalue
  refine NoBreak.string_append ?_ (by decide)
  refine NoBreak.string_append ?_ hhigh
  refine NoBreak.string_append ?_ (by decide)
  refine NoBreak.string_append ?_ hlow
  refine NoBreak.string_append ?_ (by decide)
  refine NoBreak.string_append ?_ hproto
  refine NoBreak.string_append ?_ (by decide)
  refine NoBreak.string_append ?_ hseverity
  refine NoBreak.string_append ?_ (by decide)
  refine NoBreak.string_append ?_ hkind
  refine NoBreak.string_append ?_ (by decide)
  exact NoBreak.string_append (by decide) hts

/-- A line is one line. -/
theorem noBreak_toJson (ev : L4Event F) : NoBreak ev.toJson.toList := by
  rw [toList_toJson]
  exact (noBreak_jsonHead hnum ev).append ((noBreak_jsonEscape ev.detail).append (by decide))

/-! ## The log -/

omit hnum in
/-- Every line followed by a newline, as `writeln!` puts them. -/
def ndjson (evs : List (L4Event F)) : List Char := evs.flatMap fun ev => ev.toJson.toList ++ ['\n']

/-- **The framing of the log.**  Split at the newlines, it is one line for each event, in order.
In each line the free text begins behind a head that does not depend on it, ends at the first
quote that no backslash takes along, and can be read back. -/
theorem ndjson_framing (evs : List (L4Event F)) :
    (ndjson evs).splitOn '\n' = evs.map (fun ev => ev.toJson.toList) ++ [[]] ∧
    ∀ ev ∈ evs, NoBreak ev.toJson.toList ∧
      ev.toJson.toList = ev.jsonHead ++ ((jsonEscape ev.detail).toList ++ ['"', '}']) ∧
      Quoted.scan (ev.toJson.toList.drop ev.jsonHead.length)
        = some ((jsonEscape ev.detail).toList, ['}']) ∧
      Quoted.unescape unescapeChar (jsonEscape ev.detail).toList = ev.detail.toList := by
  constructor
  · have hlines : ∀ line ∈ evs.map (fun ev => ev.toJson.toList), '\n' ∉ line := by
      rw [List.forall_mem_map]
      exact fun ev _ => (noBreak_toJson hnum ev).1
    have hsplit := splitOn_flatMap_end hlines
    rw [List.flatMap_map] at hsplit
    exact hsplit
  · intro ev _
    have hescaped : (jsonEscape ev.detail).toList = ev.detail.toList.flatMap escapeChar :=
      String.toList_ofList
    refine ⟨noBreak_toJson hnum ev, toList_toJson ev, ?_, ?_⟩
    · rw [toList_toJson, List.drop_left, hescaped]
      exact escapes_escapeChar.scan_flatMap _ ['}']
    · rw [hescaped]
      exact escapes_escapeChar.unescape_flatMap _

end Line

/-- The text of a sink is what it has written, line by line. -/
def JsonSink.written (sink : JsonSink) : List Char :=
  sink.lines.flatMap fun line => line.toList ++ ['\n']

/-- A sink that is on has written the log of the events it was given. -/
theorem JsonSink.written_foldl_emit {F : Type} [F64 F] {target : JsonTarget} (h : target ≠ .off)
    (evs : List (L4Event F)) :
    (evs.foldl JsonSink.emit (JsonSink.new target)).written = ndjson evs := by
  have hrun (sink : JsonSink) (hon : sink.target ≠ .off) :
      (evs.foldl JsonSink.emit sink).written = sink.written ++ ndjson evs := by
    induction evs generalizing sink with
    | nil => exact (List.append_nil _).symm
    | cons ev evs ih =>
        have hemit : (sink.emit ev).written = sink.written ++ (ev.toJson.toList ++ ['\n']) := by
          rw [written, emit_lines, if_neg hon, List.flatMap_append]
          simp [written]
        rw [List.foldl_cons, ih _ (by rwa [emit_target]), hemit, ndjson, ndjson, List.flatMap_cons,
          List.append_assoc]
  exact hrun _ h

/-! ## The exact reading of the numbers -/

/-- A rational breaks no line. -/
theorem noBreak_fixedRat (n : ℕ) (q : ℚ) : NoBreak (fixedRat n q).toList := by
  have hsign : NoBreak (if q < 0 then "-" else "").toList := by
    split_ifs <;> decide
  have hpad (k : ℕ) : NoBreak (String.ofList (List.replicate k '0')).toList := by
    rw [String.toList_ofList]
    apply NoBreak.of_forall_le
    intro c hc
    rw [List.eq_of_mem_replicate hc]
    decide
  have hstring (s : String) : toString s = s := rfl
  unfold fixedRat
  simp only [hstring]
  by_cases hn : n = 0
  · rw [if_pos hn]
    exact hsign.string_append (NoBreak.nat _)
  · rw [if_neg hn]
    refine NoBreak.string_append ?_ (NoBreak.nat _)
    refine NoBreak.string_append ?_ (hpad _)
    refine NoBreak.string_append ?_ (by decide)
    exact hsign.string_append (NoBreak.nat _)

namespace Sample

/-- A free text with everything that is escaped, ending in a backslash. -/
def stall : L4Event ℚ where
  tsNanos := 42
  kind := .zeroWindow
  severity := .warning
  key := (FlowKey.canonical ⟨.v4 ⟨[10, 0, 0, 1], rfl⟩, 5000⟩
    ⟨.v6 ⟨List.replicate 15 0 ++ [1], rfl⟩, 80⟩ .tcp).1
  value := 0
  detail := "a \"quote\",\nthen \\n and \\"

end Sample

/-- Two lines, and the free text with all its quotes. -/
theorem ndjson_framing_stall :
    (ndjson [Sample.stall, Sample.stall]).splitOn '\n'
      = [Sample.stall.toJson.toList, Sample.stall.toJson.toList, []] ∧
    Quoted.scan (Sample.stall.toJson.toList.drop Sample.stall.jsonHead.length)
      = some ((jsonEscape Sample.stall.detail).toList, ['}']) := by
  have h := ndjson_framing (noBreak_fixedRat 3) [Sample.stall, Sample.stall]
  exact ⟨h.1, (h.2 _ List.mem_cons_self).2.2.1⟩
