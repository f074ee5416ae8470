/-
# The event log as documents

A line of the event log is the compact text of a JSON document (`writes_toJson`).  The free text
is the only member that could break it, by a control character that `json_escape` leaves alone;
the detectors and the sweep report none, and only numbers that JSON can write.  So a JSON parser
reads every line of every run, and finds the event's data in it (`Setup.log_carries`).
-/
import L4Scope.Agent
import L4Scope.DetectorChain
import L4Scope.EventFraming
import L4Scope.HttpMessage
import L4Scope.OtlpJson

variable {F : Type} [F64 F]

/-! ## The document of an event -/

/-- The document that `to_json` writes. -/
def L4Event.doc (ev : L4Event F) : Json :=
  Json.object [("ts_ns", .num (toString ev.tsNanos).toList), ("kind", Json.text ev.kind.asStr),
    ("severity", Json.text ev.severity.asStr), ("proto", Json.text ev.key.proto.asStr),
    ("low", Json.text (toString ev.key.low)), ("high", Json.text (toString ev.key.high)),
    ("value", .num (F64.fixed 3 ev.value).toList), ("detail", Json.text ev.detail)]

/-- Text that is written as it is. -/
theorem escChars_of_plain {t : List Char}
    (h : ∀ c ∈ t, 0x20 ≤ c.toNat ∧ c ≠ '"' ∧ c ≠ '\\') : escChars t = t := by
  induction t with
  | nil => rfl
  | cons c t ih =>
      obtain ⟨⟨hc, hquote, hslash⟩, ht⟩ := List.forall_mem_cons.1 h
      have hchar : escapeChar c = [c] := by
        unfold escapeChar
        split
        case h_6 => rfl
        case h_1 => exact absurd rfl hquote
        case h_2 => exact absurd rfl hslash
        all_goals exact absurd hc (by decide)
      rw [Otlp.escChars_cons, hchar, ih ht]
      rfl

/-- An endpoint is written as it is. -/
theorem escChars_endpoint (e : Endpoint) : escChars (toString e).toList = (toString e).toList :=
  escChars_of_plain (forall_mem_endpoint (by decide) (by decide) (by decide) (by decide)
    (by decide) e)

/-- It has no control character. -/
theorem covers_endpoint (e : Endpoint) : EscCovers (toString e).toList :=
  fun c hc => Or.inl (forall_mem_endpoint (P := fun c => 0x20 ≤ c.toNat) (by decide) (by decide)
    (by decide) (by decide) (by decide) e c hc)

/-- **The line is the compact text of the document.** -/
theorem writes_toJson (ev : L4Event F) : Otlp.Writes ev.toJson ev.doc := by
  have hkind : escChars ev.kind.asStr.toList = ev.kind.asStr.toList := by
    cases ev.kind <;> decide
  have hseverity : escChars ev.severity.asStr.toList = ev.severity.asStr.toList := by
    cases ev.severity <;> decide
  have hproto : escChars ev.key.proto.asStr.toList = ev.key.proto.asStr.toList := by
    cases ev.key.proto <;> decide
  have hdetail : (jsonEscape ev.detail).toList = escChars ev.detail.toList := toList_esc ev.detail
  delta L4Event.toJson
  dsimp only
  simp [Otlp.Writes, L4Event.doc, Json.object, Json.text, Json.print, Json.printMembers, hkind,
    hseverity, hproto, hdetail, escChars_endpoint, Otlp.escChars_nil, Otlp.escChars_cons,
    escapeChar]

/-! ## What the engine reports -/

/-- The numbers that the events report: literals, counts, the ratio of a count to another that is
not zero, and a time in seconds or milliseconds. -/
inductive Reported : F → Prop where
  | literal (m e : ℕ) : Reported (F64.ofDecimal m e)
  | count (n : ℕ) : Reported (F64.ofU64 n)
  | ratio (n : ℕ) {d : ℕ} (hd : d ≠ 0) : Reported (F64.div (F64.ofU64 n) (F64.ofU64 d))
  | millis (n : ℕ) : Reported (F64.mul (nsToSecsF64 n) (F64.ofDecimal 1000 0))

/-- The text has no control characters. -/
def Printable (s : String) : Prop := ∀ c ∈ s.toList, 0x20 ≤ c.toNat

instance (s : String) : Decidable (Printable s) := List.decidableBAll _ s.toList

@[simp] theorem printable_append {s t : String} :
    Printable (s ++ t) ↔ Printable s ∧ Printable t := by
  rw [Printable, String.toList_append, List.forall_mem_append]
  rfl

/-- The event has a number of one of these forms and a text without control characters. -/
structure L4Event.Clean (ev : L4Event F) : Prop where
  value : Reported ev.value
  detail : Printable ev.detail

omit [F64 F] in
/-- Only the given event passes a debounce. -/
theorem debounced_eq_some {b : Debounce} {below : Bool} {now : ℕ} {ev ev' : L4Event F}
    (h : (debounced b below now ev).2 = some ev') : ev' = ev := by
  unfold debounced at h
  split_ifs at h
  dsimp only at h
  split_ifs at h
  exact (Option.some.inj h).symm

@[simp] theorem printable_repr (n : ℕ) : Printable n.repr := forall_mem_nat (by decide) n

@[simp] theorem printable_endpoint (e : Endpoint) : Printable (toString e) :=
  forall_mem_endpoint (by decide) (by decide) (by decide) (by decide) (by decide) e

@[simp] theorem printable_key (k : FlowKey) : Printable (toString k) := by
  have hproto : Printable k.proto.asStr := by
    cases k.proto <;> decide
  have harrow : Printable " <-> " := by decide
  have hspace : Printable " " := by decide
  have htext : toString k = k.proto.asStr ++ " " ++ toString k.low ++ " <-> " ++ toString k.high :=
    rfl
  simp [htext, hproto, harrow, hspace]

section Clean

variable (hfixed : ∀ (n : ℕ) (x : F), Printable (F64.fixed n x))

include hfixed

/-- The retransmission detector writes a clean event. -/
theorem inspectRetransmission_clean {ctx : DetectCtx F} {ev : L4Event F}
    (h : inspectRetransmission ctx = some ev) : ev.Clean := by
  cases hflow : ctx.flow with
  | none => simp [inspectRetransmission, hflow] at h
  | some flow =>
      simp only [inspectRetransmission, hflow] at h
      simp at h
      obtain ⟨-, -, rfl⟩ := h
      have hstring (s : String) : toString s = s := rfl
      constructor
      · rw [FlowState.retransmitRatio]
        split_ifs with hzero
        · exact .literal 0 0
        · exact .ratio _ hzero
      · simp +decide [hstring, hfixed]

/-- So does the round trip detector. -/
theorem inspectHighRtt_clean {ctx : DetectCtx F} {ev : L4Event F}
    (h : inspectHighRtt ctx = some ev) : ev.Clean := by
  cases hrtt : ctx.delta.rttSampleNs with
  | none => simp [inspectHighRtt, hrtt] at h
  | some rtt =>
      simp only [inspectHighRtt, hrtt] at h
      simp at h
      obtain ⟨-, rfl⟩ := h
      have hstring (s : String) : toString s = s := rfl
      exact ⟨.millis rtt, by simp +decide [hstring, hfixed]⟩

/-- So does every detector. -/
theorem Detector.inspect_clean {ctx : DetectCtx F} {d : Detector} {ev : L4Event F}
    (h : (d.inspect ctx).2 = some ev) : ev.Clean := by
  have hstring (s : String) : toString s = s := rfl
  cases d with
  | retransmission => exact inspectRetransmission_clean hfixed h
  | highRtt => exact inspectHighRtt_clean hfixed h
  | rstStorm b =>
      simp only [inspect, inspectRstStorm] at h
      split_ifs at h
      rw [debounced_eq_some h]
      exact ⟨.ratio _ (Nat.ne_of_gt (RollingRate.window_pos _)), by simp +decide [hstring, hfixed]⟩
  | churn b =>
      simp only [inspect, inspectChurn] at h
      split_ifs at h
      rw [debounced_eq_some h]
      exact ⟨.ratio _ (Nat.ne_of_gt (RollingRate.window_pos _)), by simp +decide [hstring, hfixed]⟩
  | synBacklog b =>
      simp only [inspect, inspectSynBacklog] at h
      cases hflow : ctx.flow with
      | none => simp [hflow] at h
      | some flow =>
          simp only [hflow] at h
          rw [debounced_eq_some h]
          exact ⟨.count _, by simp +decide [hstring]⟩
  | outOfOrder =>
      simp only [inspect, inspectOutOfOrder] at h
      split_ifs at h
      cases h
      exact ⟨.literal 1 0, by simp +decide [hstring]⟩
  | dupAck =>
      simp only [inspect, inspectDupAck] at h
      split_ifs at h
      cases h
      exact ⟨.count _, by simp +decide [hstring]⟩
  | zeroWindow =>
      simp only [inspect, inspectZeroWindow] at h
      split_ifs at h
      cases h
      exact ⟨.literal 0 0, by simp +decide [hstring]⟩
  | handshakeFailure =>
      simp only [inspect, inspectHandshakeFailure] at h
      split_ifs at h
      cases h
      exact ⟨.literal 1 0, by simp +decide [hstring]⟩

/-- A timeout is clean. -/
theorem timeoutEvent_clean (now : ℕ) (k : FlowKey) (f : FlowState) :
    (timeoutEvent (F := F) now k f).Clean := by
  have hstring (s : String) : toString s = s := rfl
  exact ⟨.ratio _ (by decide), by simp +decide [timeoutEvent, hstring, hfixed]⟩

/-- So is everything a sweep reports. -/
theorem sweep_clean (s : EngineState F) (now : ℕ) : ∀ ev ∈ (s.sweep now).2, ev.Clean := by
  intro ev hev
  obtain ⟨k, f, -, -, rfl⟩ := EngineState.mem_sweep_events.1 hev
  exact timeoutEvent_clean hfixed now k _

/-- **Every event of the engine**, whatever its detectors and its state. -/
theorem Engine.step_clean (e : Engine F) (c : Call) :
    ∀ ev ∈ (machine.step e c).2, ev.Clean := by
  cases c with
  | sweep now => exact sweep_clean hfixed e.state now
  | process pkt =>
      rw [step_process, process_events, List.forall_mem_append]
      constructor
      · intro ev hev
        rw [inspectAll, List.mem_filterMap] at hev
        obtain ⟨r, hr, hev⟩ := hev
        obtain ⟨d, -, rfl⟩ := List.mem_map.1 hr
        exact Detector.inspect_clean hfixed hev
      · split_ifs
        · exact sweep_clean hfixed _ _
        · exact fun ev hev => absurd hev List.not_mem_nil

/-- **Every event of a run is clean.** -/
theorem Engine.events_clean (e : Engine F) (calls : List Call) :
    ∀ ev ∈ e.events calls, ev.Clean := by
  intro ev hev
  obtain ⟨out, hout, hev⟩ := List.mem_flatten.1 hev
  obtain ⟨entry, hentry, rfl⟩ := List.mem_map.1 hout
  obtain ⟨-, -, -, -, houtput⟩ := (Machine.mem_log _).1 hentry
  rw [houtput] at hev
  exact step_clean hfixed entry.state entry.input ev hev

end Clean

/-! ## Reading a line -/

/-- What a line tells of an event, the number as text. -/
structure EventData where
  tsNanos : ℕ
  kind : String
  severity : String
  proto : String
  low : String
  high : String
  value : String
  detail : String
  deriving DecidableEq

/-- The data of an event, as texts. -/
def L4Event.data (ev : L4Event F) : EventData where
  tsNanos := ev.tsNanos
  kind := ev.kind.asStr
  severity := ev.severity.asStr
  proto := ev.key.proto.asStr
  low := toString ev.key.low
  high := toString ev.key.high
  value := F64.fixed 3 ev.value
  detail := ev.detail

namespace EventData

/-- The text of a number. -/
def number : Json → Option String
  | .num ds => some (String.ofList ds)
  | _ => none

/-- A number in decimal digits. -/
def natural : Json → Option ℕ
  | .num ds => readDecimal ds
  | _ => none

/-- The data in a document. -/
def ofJson (doc : Json) : Option EventData := do
  let tsNanos ← natural (← Otlp.field "ts_ns" doc)
  let kind ← Otlp.string (← Otlp.field "kind" doc)
  let severity ← Otlp.string (← Otlp.field "severity" doc)
  let proto ← Otlp.string (← Otlp.field "proto" doc)
  let low ← Otlp.string (← Otlp.field "low" doc)
  let high ← Otlp.string (← Otlp.field "high" doc)
  let value ← number (← Otlp.field "value" doc)
  let detail ← Otlp.string (← Otlp.field "detail" doc)
  some { tsNanos, kind, severity, proto, low, high, value, detail }

/-- The data in a line. -/
def ofLine (line : List Char) : Option EventData := (Json.parse (String.ofList line)).bind ofJson

/-- A number is read back. -/
theorem natural_toString (n : ℕ) : natural (.num (toString n).toList) = some n :=
  readDecimal_toString n

/-- The data is read back from the document. -/
theorem ofJson_doc (ev : L4Event F) : ofJson ev.doc = some ev.data := by
  simp [ofJson, L4Event.doc, Otlp.field_object_cons, -Nat.toString_eq_repr, natural_toString,
    Otlp.string, Json.text, number, L4Event.data]

/-- A line whose free text has no control character, and whose value is a number, is read back. -/
theorem ofLine_toJson {ev : L4Event F} (hvalue : Json.IsNumber (F64.fixed 3 ev.value).toList)
    (hdetail : EscCovers ev.detail.toList) : ofLine ev.toJson.toList = some ev.data := by
  have htime : Json.IsNumber (toString ev.tsNanos).toList := by
    have hdecimal : Json.IsNumber (Json.decimal false ev.tsNanos []) :=
      Json.isNumber_decimal (by simp)
    rw [toList_toString]
    simpa [Json.decimal] using hdecimal
  have hkind : EscCovers ev.kind.asStr.toList := by
    cases ev.kind <;> decide
  have hseverity : EscCovers ev.severity.asStr.toList := by
    cases ev.severity <;> decide
  have hproto : EscCovers ev.key.proto.asStr.toList := by
    cases ev.key.proto <;> decide
  have hreadable : Json.Readable escChars ev.doc := by
    have hkey : ∀ name ∈ ["ts_ns", "kind", "severity", "proto", "low", "high", "value", "detail"],
        Json.ReadsBack escChars name.toList :=
      fun name hname => readsBack_of_covers (by revert name; decide)
    simp only [List.forall_mem_cons] at hkey
    simp only [Json.Readable, L4Event.doc, Json.all_object, List.forall_mem_cons, Json.all_num,
      Json.all_text, hkey, htime, hvalue, readsBack_of_covers hkind,
      readsBack_of_covers hseverity, readsBack_of_covers hproto,
      readsBack_of_covers (covers_endpoint _), readsBack_of_covers hdetail]
    simp
  have hline : ev.toJson.toList = Json.print escChars ev.doc := writes_toJson ev
  rw [ofLine, hline, Json.parse_print hreadable]
  exact ofJson_doc ev

end EventData

/-! ## The log of a run -/

/-- **The event log of a run** splits into its lines, and a JSON parser finds the data of the
events in them, in order. -/
theorem Setup.log_carries {ε : Type} [ToString ε] (s : Setup F ε) (hon : s.jsonTarget ≠ .off)
    (hfixed : ∀ (n : ℕ) (x : F), Printable (F64.fixed n x))
    (hnumber : ∀ x : F, Reported x → Json.IsNumber (F64.fixed 3 x).toList) :
    ∃ lines, s.agent.jsonSink.written.splitOn '\n' = lines ++ [[]] ∧
      lines.map EventData.ofLine
        = ((Engine.new s.detect).events s.capture.calls).map fun ev => some ev.data := by
  have hlines := s.accounts.sinkLines
  have hclean := Engine.events_clean hfixed (Engine.new s.detect) s.capture.calls
  generalize (Engine.new s.detect).events s.capture.calls = evs at hlines hclean ⊢
  rw [if_neg hon] at hlines
  refine ⟨evs.map fun ev => ev.toJson.toList, ?_, ?_⟩
  · have hbreak : ∀ line ∈ evs.map (fun ev => ev.toJson.toList), '\n' ∉ line := by
      rw [List.forall_mem_map]
      intro ev _
      have hplain (x : F) : NoBreak (F64.fixed 3 x).toList := by
        constructor <;> exact fun hc => absurd (hfixed 3 x _ hc) (by decide)
      exact (noBreak_toJson hplain ev).1
    have hsplit := splitOn_flatMap_end hbreak
    rw [List.flatMap_map] at hsplit
    rw [JsonSink.written, hlines, List.flatMap_map]
    exact hsplit
  · rw [List.map_map]
    apply List.map_congr_left
    intro ev hev
    have hcovers : EscCovers ev.detail.toList := fun c hc => Or.inl ((hclean ev hev).detail c hc)
    rw [Function.comp_apply]
    exact EventData.ofLine_toJson (hnumber _ (hclean ev hev).value) hcovers

/-! ## The exact reading of the numbers -/

/-- A rational number is written as a decimal number. -/
theorem toList_fixedRat (n : ℕ) (q : ℚ) : ∃ negative whole fraction,
    (∀ c ∈ fraction, c.isDigit = true) ∧
      (fixedRat n q).toList = Json.decimal negative whole fraction := by
  have hstring (s : String) : toString s = s := rfl
  have hsign : (if q < 0 then "-" else "" : String).toList
      = if decide (q < 0) = true then ['-'] else [] := by
    by_cases hq : q < 0 <;> simp [hq]
  have hdigits (m : ℕ) : (toString m).toList = Nat.toDigits 10 m := toList_toString m
  unfold fixedRat
  simp only [hstring]
  generalize (roundHalfEven (|q| * 10 ^ n)).toNat = m
  by_cases hn : n = 0
  · refine ⟨decide (q < 0), m, [], by simp, ?_⟩
    rw [if_pos hn, String.toList_append, hsign, hdigits, Json.decimal, if_pos rfl,
      List.append_nil]
  · generalize hpad : List.replicate (n - (toString (m % 10 ^ n)).length) '0' = pad
    have hfraction : ∀ c ∈ pad ++ Nat.toDigits 10 (m % 10 ^ n), c.isDigit = true := by
      rw [List.forall_mem_append]
      refine ⟨fun c hc => ?_, Json.isDigit_of_toDigits⟩
      rw [← hpad] at hc
      rw [List.eq_of_mem_replicate hc]
      decide
    have hne : pad ++ Nat.toDigits 10 (m % 10 ^ n) ≠ [] :=
      List.append_ne_nil_of_right_ne_nil _ Nat.toDigits_ne_nil
    refine ⟨decide (q < 0), m / 10 ^ n, pad ++ Nat.toDigits 10 (m % 10 ^ n), hfraction, ?_⟩
    rw [if_neg hn, Json.decimal, if_neg hne]
    simp only [String.toList_append, hsign, hdigits, String.toList_ofList, List.append_assoc]
    rfl

/-- A rational is written as JSON can read it. -/
theorem isNumber_fixedRat (n : ℕ) (q : ℚ) : Json.IsNumber (fixedRat n q).toList := by
  obtain ⟨negative, whole, fraction, hfraction, htext⟩ := toList_fixedRat n q
  rw [htext]
  exact Json.isNumber_decimal hfraction

/-- And without control characters. -/
theorem printable_fixedRat (n : ℕ) (q : ℚ) : Printable (fixedRat n q) := by
  obtain ⟨negative, whole, fraction, hfraction, htext⟩ := toList_fixedRat n q
  have hdigit {c : Char} (hc : c.isDigit = true) : 0x20 ≤ c.toNat := by
    rw [Char.isDigit_iff_toNat] at hc
    exact le_trans (by decide) hc.1
  have hpoint : 0x20 ≤ '.'.toNat := by decide
  rw [Printable, htext, Json.decimal, List.forall_mem_append, List.forall_mem_append]
  refine ⟨⟨?_, fun c hc => hdigit (Json.isDigit_of_toDigits c hc)⟩, ?_⟩
  · split_ifs <;> simp
  · split_ifs
    · simp
    · exact List.forall_mem_cons.2 ⟨hpoint, fun c hc => hdigit (hfraction c hc)⟩

namespace Sample

/-- A connection request that is refused, logged to standard output. -/
def loggedRefusal : Setup ℚ Unit where
  settings := { podMatcher := none, quiet := true }
  detect := DetectConfig.default ℚ
  jsonTarget := .stdout
  capture := {
    packets := [tcp 5 (ep 1 5002) (ep 2 80) 0x02 100 0 64240 0,
      tcp 6 (ep 2 80) (ep 1 5002) 0x14 0 101 0 0]
    failure := none }

end Sample

/-- Its log is read back as one event. -/
theorem Setup.log_carries_refused :
    ∃ lines, Sample.loggedRefusal.agent.jsonSink.written.splitOn '\n' = lines ++ [[]] ∧
      lines.map EventData.ofLine = [some {
        tsNanos := 6
        kind := "handshake_failure"
        severity := "warning"
        proto := "tcp"
        low := "10.0.0.1:5002"
        high := "10.0.0.2:80"
        value := "1.000"
        detail := "Connection refused (RST during handshake) on "
          ++ "tcp 10.0.0.1:5002 <-> 10.0.0.2:80" }] := by
  obtain ⟨lines, hsplit, hdata⟩ := Sample.loggedRefusal.log_carries (by decide) printable_fixedRat
    fun x _ => isNumber_fixedRat 3 x
  refine ⟨lines, hsplit, hdata.trans ?_⟩
  decide +kernel
