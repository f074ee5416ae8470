/-
# The document behind the OTLP metrics body

The format strings of `build_body` write the compact text of a JSON document
(`writes_buildBody`), with the strings of the document as `esc` writes them.
-/
import L4Scope.JsonPlain
import L4Scope.OtlpBody
import Mathlib.Data.List.Forall2

variable {F : Type}

/-! ## What the escape covers -/

/-- A text with its escapes, as characters. -/
def escChars (t : List Char) : List Char := t.flatMap escapeChar

/-- The text has no control character that `esc` leaves as it is. -/
def EscCovers (t : List Char) : Prop :=
  ∀ c ∈ t, 0x20 ≤ c.toNat ∨ c = '\n' ∨ c = '\r' ∨ c = '\t'

instance (t : List Char) : Decidable (EscCovers t) := List.decidableBAll _ t

/-- The escapes as characters. -/
theorem toList_esc (s : String) : (esc s).toList = escChars s.toList := by
  rw [esc, jsonEscape, String.toList_ofList, escChars]

/-- The reader undoes the escape of one character. -/
theorem stringBody_escapeChar {c : Char} (hc : 0x20 ≤ c.toNat ∨ c = '\n' ∨ c = '\r' ∨ c = '\t')
    (n : ℕ) (s : List Char) : Json.stringBody (n + 1) (escapeChar c ++ s)
      = (Json.stringBody n s).bind fun p => some (c :: p.1, p.2) := by
  unfold escapeChar
  split
  case h_6 =>
    rename_i hquote hslash hn ht hr
    have hle : ¬ c.toNat < 0x20 := by
      rcases hc with hc | hc | hc | hc
      · exact Nat.not_lt.2 hc
      · exact absurd hc hn
      · exact absurd hc hr
      · exact absurd hc ht
    rw [List.singleton_append, Json.stringBody, if_neg hquote, if_neg hslash, if_neg hle]
    rfl
  all_goals rfl

/-- A covered text is read back. -/
theorem readsBack_of_covers {t : List Char} (h : EscCovers t) : Json.ReadsBack escChars t := by
  induction t with
  | nil =>
      intro n rest hn
      obtain ⟨n, rfl⟩ : ∃ m, n = m + 1 := ⟨n - 1, by omega⟩
      rfl
  | cons c t ih =>
      intro n rest hn
      obtain ⟨hc, ht⟩ := List.forall_mem_cons.1 h
      rw [escChars, List.flatMap_cons, List.length_append] at hn
      have hpos : 0 < (escapeChar c).length := by
        unfold escapeChar
        split <;> exact Nat.succ_pos _
      obtain ⟨n, rfl⟩ : ∃ m, n = m + 1 := ⟨n - 1, by omega⟩
      have htail := ih ht n rest (by rw [escChars]; omega)
      rw [escChars, List.flatMap_cons, List.append_assoc, stringBody_escapeChar hc, ← escChars,
        htail]
      rfl

/-- Only the escape of a covered text is plain. -/
theorem covers_of_plain {t : List Char} (h : ∀ c ∈ escChars t, Json.Plain c) : EscCovers t := by
  intro c hc
  by_cases hraw : c ∈ escapeChar c
  · rcases h c (List.mem_flatMap.2 ⟨c, hc, hraw⟩) with hle | hws
    · exact Or.inl hle
    · simp only [Json.isWs, Bool.or_eq_true, decide_eq_true_eq] at hws
      rcases hws with ((rfl | rfl) | rfl) | rfl <;> decide
  · unfold escapeChar at hraw
    split at hraw
    case h_6 => exact absurd List.mem_cons_self hraw
    all_goals decide

/-- A covered text has plain escapes. -/
theorem plain_of_covers {t : List Char} (h : EscCovers t) : ∀ c ∈ escChars t, Json.Plain c := by
  intro c hc
  obtain ⟨d, hd, hcd⟩ := List.mem_flatMap.1 hc
  unfold escapeChar at hcd
  split at hcd
  case h_6 =>
    rw [List.mem_singleton.1 hcd]
    rcases h d hd with hle | rfl | rfl | rfl
    · exact Or.inl hle
    · exact Or.inr rfl
    · exact Or.inr rfl
    · exact Or.inr rfl
  all_goals
    rcases List.mem_pair.1 hcd with rfl | rfl <;> exact Or.inl (by decide)

/-! ## The document -/

namespace Otlp

open Json (text object)

/-- 64-bit integers are strings in the JSON form of protobuf. -/
def int64 (n : ℕ) : Json := text (toString n)

/-- The document of an attribute. -/
def attrDoc (p : String × String) : Json :=
  object [("key", text p.1), ("value", object [("stringValue", text p.2)])]

/-- The document of an array of attributes. -/
def attrsDoc (pairs : List (String × String)) : Json := .arr (pairs.map attrDoc)

/-- The document of a sum's data point. -/
def sumPointDoc (startNs nowNs : ℕ) (p : SumPoint) : Json :=
  object [("asInt", int64 p.value), ("startTimeUnixNano", int64 startNs),
    ("timeUnixNano", int64 nowNs), ("attributes", attrsDoc p.attrs)]

/-- The document of a sum. -/
def sumDoc (startNs nowNs : ℕ) (m : SumMetric) : Json :=
  object [("name", text m.name), ("unit", text "1"),
    ("sum", object [("aggregationTemporality", .num ['2']), ("isMonotonic", .bool true),
      ("dataPoints", .arr (m.points.map (sumPointDoc startNs nowNs)))])]

/-- The document of a gauge's data point. -/
def gaugePointDoc (valueKey : String) (value : Json) (nowNs : ℕ) : Json :=
  object [(valueKey, value), ("timeUnixNano", int64 nowNs), ("attributes", .arr [])]

/-- The document of a gauge. -/
def gaugeDoc (name unit : String) (point : Json) : Json :=
  object [("name", text name), ("unit", text unit), ("gauge", object [("dataPoints", .arr [point])])]

/-- A displayed number, as a JSON number. -/
def double [F64Display F] (value : F) : Json := .num (F64Display.display value).text.toList

/-- The documents of the gauges. -/
def gaugeDocs [F64Display F] (snap : MetricsSnapshot F) (nowNs : ℕ) : List Json :=
  [gaugeDoc "l4scope.active_flows" "1" (gaugePointDoc "asInt" (int64 snap.activeFlows) nowNs),
    gaugeDoc "l4scope.half_open_max" "1" (gaugePointDoc "asInt" (int64 snap.halfOpenMax) nowNs),
    gaugeDoc "l4scope.rst_per_second" "1/s"
      (gaugePointDoc "asDouble" (double snap.rstPerSec) nowNs),
    gaugeDoc "l4scope.new_flows_per_second" "1/s"
      (gaugePointDoc "asDouble" (double snap.newFlowPerSec) nowNs)]

/-- The document that `build_body` writes. -/
def bodyDoc [F64Display F] (snap : MetricsSnapshot F) (resourceAttrs : List (String × String))
    (startNs nowNs : ℕ) : Json :=
  object [("resourceMetrics", .arr [object [
    ("resource", object [("attributes", attrsDoc resourceAttrs)]),
    ("scopeMetrics", .arr [object [
      ("scope", object [("name", text "l4scope"), ("version", text "0.1.0")]),
      ("metrics", .arr (snap.sums.map (sumDoc startNs nowNs) ++ gaugeDocs snap nowNs))]])]])]

/-! ## The text of the document -/

/-- The text is the print of the document. -/
def Writes (s : String) (j : Json) : Prop := s.toList = Json.print escChars j

theorem escChars_nil : escChars [] = [] := rfl

/-- One character after the other. -/
theorem escChars_cons (c : Char) (t : List Char) : escChars (c :: t) = escapeChar c ++ escChars t :=
  List.flatMap_cons

/-- Digits are written as they are. -/
theorem escChars_toDigits (n : ℕ) : escChars (Nat.toDigits 10 n) = Nat.toDigits 10 n := by
  have hdigit : ∀ c : Char, c.isDigit = true → escapeChar c = [c] := by
    intro c hc
    unfold escapeChar
    split
    case h_6 => rfl
    all_goals exact absurd hc (by decide)
  have hcons : ∀ t : List Char, (∀ c ∈ t, c.isDigit = true) → escChars t = t := by
    intro t ht
    induction t with
    | nil => rfl
    | cons c t ih =>
        rw [escChars_cons, hdigit c (ht c List.mem_cons_self),
          ih fun d hd => ht d (List.mem_cons_of_mem _ hd)]
        rfl
  exact hcons _ Json.isDigit_of_toDigits

/-- An attribute's text is that of its document. -/
theorem writes_attrStr (p : String × String) : Writes (attrStr p.1 p.2) (attrDoc p) := by
  simp [Writes, attrStr, attrDoc, object, text, Json.print, Json.printMembers, toList_esc,
    escChars_nil, escChars_cons, escapeChar]

/-- Texts joined by commas. -/
theorem toList_items {ss : List String} {js : List Json} (h : List.Forall₂ Writes ss js) :
    (",".intercalate ss).toList = List.intercalate [','] (js.map (Json.print escChars)) := by
  have hmap : ss.map String.toList = js.map (Json.print escChars) := by
    induction h with
    | nil => rfl
    | cons hs _ ih => rw [List.map_cons, List.map_cons, hs, ih]
  rw [String.toList_intercalate, hmap]
  rfl

/-- The texts of the same items. -/
theorem forall₂_writes {α : Type} {f : α → String} {g : α → Json} (xs : List α)
    (h : ∀ x ∈ xs, Writes (f x) (g x)) : List.Forall₂ Writes (xs.map f) (xs.map g) := by
  rw [List.forall₂_map_left_iff, List.forall₂_map_right_iff, List.forall₂_same]
  exact h

/-- So is that of attributes. -/
theorem writes_attrsArray (pairs : List (String × String)) :
    Writes (attrsArray pairs) (attrsDoc pairs) := by
  have hitems := toList_items (forall₂_writes pairs fun p _ => writes_attrStr p)
  rw [Writes, attrsArray, attrsDoc, Json.print_arr, String.toList_append, String.toList_append,
    hitems]
  rfl

/-- So is that of a sum's data point. -/
theorem writes_sumDpInt (startNs nowNs : ℕ) (p : SumPoint) :
    Writes (sumDpInt p.value startNs nowNs (attrsArray p.attrs)) (sumPointDoc startNs nowNs p) := by
  have hattrs : (attrsArray p.attrs).toList = _ := writes_attrsArray p.attrs
  -- `delta`, here and below: the equation of a format string is slow to derive
  delta sumDpInt
  simp [Writes, sumPointDoc, object, int64, text, Json.print, Json.printMembers,
    escChars_toDigits, hattrs, escChars_nil, escChars_cons, escapeChar]

/-- The name of a sum is written as it is. -/
theorem writes_sum {m : SumMetric} (hname : escChars m.name.toList = m.name.toList)
    (startNs nowNs : ℕ) : Writes (m.text startNs nowNs) (sumDoc startNs nowNs m) := by
  have hpoints := toList_items
    (forall₂_writes m.points fun p _ => writes_sumDpInt startNs nowNs p)
  delta SumMetric.text metricSum
  rw [Writes, sumDoc]
  generalize ",".intercalate _ = points at hpoints ⊢
  simp [object, text, Json.print, Json.printMembers, Json.print_arr, hpoints, hname, escChars_nil,
    escChars_cons, escapeChar]

/-- So is that of a gauge with a whole number. -/
theorem writes_gaugeInt {name unit : String} (hname : escChars name.toList = name.toList)
    (hunit : escChars unit.toList = unit.toList) (value nowNs : ℕ) :
    Writes (metricGauge name unit [gaugeDpInt value nowNs])
      (gaugeDoc name unit (gaugePointDoc "asInt" (int64 value) nowNs)) := by
  delta metricGauge gaugeDpInt
  simp [Writes, gaugeDoc, gaugePointDoc, object, int64, text, Json.print,
    Json.printItems, Json.printMembers, escChars_toDigits, hname, hunit, escChars_nil,
    escChars_cons, escapeChar]

/-- So is that of a gauge with a floating-point number. -/
theorem writes_gaugeDouble [F64Display F] {name unit : String}
    (hname : escChars name.toList = name.toList) (hunit : escChars unit.toList = unit.toList)
    (value : F) (nowNs : ℕ) : Writes (metricGauge name unit [gaugeDpDouble value nowNs])
      (gaugeDoc name unit (gaugePointDoc "asDouble" (double value) nowNs)) := by
  delta metricGauge gaugeDpDouble
  simp [Writes, gaugeDoc, gaugePointDoc, double, object, int64, text,
    Json.print, Json.printItems, Json.printMembers, escChars_toDigits, hname, hunit, escChars_nil,
    escChars_cons, escapeChar]

/-- A sum has the name it is pushed under. -/
theorem pushSum_name {name : String} {points : List SumPoint} :
    ∀ m ∈ pushSum name points, m.name = name := by
  intro m hm
  rw [pushSum] at hm
  split_ifs at hm
  · exact absurd hm List.not_mem_nil
  · rw [List.mem_singleton.1 hm]

/-- The sums have four names. -/
theorem sums_name {P : String → Prop} (snap : MetricsSnapshot F) (hpackets : P "l4scope.packets")
    (hevents : P "l4scope.events") (hpodEvents : P "l4scope.pod.events")
    (hpodPackets : P "l4scope.pod.packets") : ∀ m ∈ snap.sums, P m.name := by
  intro m hm
  simp only [MetricsSnapshot.sums, List.mem_append, List.mem_singleton] at hm
  rcases hm with ((rfl | hm) | hm) | hm
  · exact hpackets
  · rwa [pushSum_name m hm]
  · rwa [pushSum_name m hm]
  · rwa [pushSum_name m hm]

/-- The names have no escapes. -/
theorem escChars_name (snap : MetricsSnapshot F) :
    ∀ m ∈ snap.sums, escChars m.name.toList = m.name.toList := by
  apply sums_name (P := fun name => escChars name.toList = name.toList) <;>
    simp [escChars_nil, escChars_cons, escapeChar]

/-- They have no control characters. -/
theorem covers_name (snap : MetricsSnapshot F) : ∀ m ∈ snap.sums, EscCovers m.name.toList := by
  apply sums_name (P := fun name => EscCovers name.toList) <;> decide

/-- The texts of the gauges are those of their documents. -/
theorem writes_gauges [F64Display F] (snap : MetricsSnapshot F) (nowNs : ℕ) :
    List.Forall₂ Writes
      [metricGauge "l4scope.active_flows" "1" [gaugeDpInt snap.activeFlows nowNs],
        metricGauge "l4scope.half_open_max" "1" [gaugeDpInt snap.halfOpenMax nowNs],
        metricGauge "l4scope.rst_per_second" "1/s" [gaugeDpDouble snap.rstPerSec nowNs],
        metricGauge "l4scope.new_flows_per_second" "1/s" [gaugeDpDouble snap.newFlowPerSec nowNs]]
      (gaugeDocs snap nowNs) := by
  rw [gaugeDocs]
  refine .cons ?_ (.cons ?_ (.cons ?_ (.cons ?_ .nil)))
  · apply writes_gaugeInt <;> simp [escChars_nil, escChars_cons, escapeChar]
  · apply writes_gaugeInt <;> simp [escChars_nil, escChars_cons, escapeChar]
  · apply writes_gaugeDouble <;> simp [escChars_nil, escChars_cons, escapeChar]
  · apply writes_gaugeDouble <;> simp [escChars_nil, escChars_cons, escapeChar]

/-- **The body is the compact text of the document.** -/
theorem writes_buildBody [F64Display F] (snap : MetricsSnapshot F)
    (resourceAttrs : List (String × String)) (startNs nowNs : ℕ) :
    Writes (buildBody snap resourceAttrs startNs nowNs)
      (bodyDoc snap resourceAttrs startNs nowNs) := by
  have hattrs := toList_items (forall₂_writes resourceAttrs fun p _ => writes_attrStr p)
  have hsums : List.Forall₂ Writes (snap.sums.map (SumMetric.text startNs nowNs))
      (snap.sums.map (sumDoc startNs nowNs)) :=
    forall₂_writes _ fun m hm => writes_sum (escChars_name snap m hm) startNs nowNs
  have hmetrics := toList_items (List.rel_append hsums (writes_gauges snap nowNs))
  delta buildBody
  rw [Writes, bodyDoc]
  dsimp only
  generalize ",".intercalate _ = attrs at hattrs ⊢
  generalize ",".intercalate _ = metrics at hmetrics ⊢

  simp [object, text, attrsDoc, Json.print, Json.printItems, Json.printMembers, Json.print_arr,
    hattrs, hmetrics, escChars_nil, escChars_cons, escapeChar]

/-! ## The strings of the document -/

/-- The texts that the body takes from elsewhere. -/
def texts (snap : MetricsSnapshot F) (resourceAttrs : List (String × String)) : List String :=
  resourceAttrs.flatMap (fun p => [p.1, p.2])
    ++ snap.eventCounts.flatMap (fun e => [e.1, e.2.1])
    ++ snap.podEventCounts.flatMap (fun e => [e.1, e.2.1, e.2.2.1])
    ++ snap.podPackets.map (fun e => e.1)

section Strings

variable {p q : List Char → Prop} (hp : ∀ t, EscCovers t → p t)

include hp

/-- A number in a string is covered. -/
theorem all_int64 (n : ℕ) : Json.All p q (int64 n) := by
  rw [int64, Json.all_text]
  refine hp _ fun c hc => Or.inl ?_
  rw [Nat.toString_eq_repr, Nat.toList_repr] at hc
  have hdigit := Json.isDigit_of_toDigits c hc
  rw [Char.isDigit_iff_toNat] at hdigit
  exact le_trans (by decide) hdigit.1

/-- The texts of an attribute. -/
theorem all_attrDoc (a : String × String) :
    Json.All p q (attrDoc a) ↔ p a.1.toList ∧ p a.2.toList := by
  have hkey : p "key".toList := hp _ (by decide)
  have hvalue : p "value".toList := hp _ (by decide)
  have hstring : p "stringValue".toList := hp _ (by decide)
  simp only [attrDoc, Json.all_object, List.forall_mem_cons, List.not_mem_nil, Json.all_text,
    hkey, hvalue, hstring]
  simp

/-- The texts of attributes. -/
theorem all_attrsDoc (pairs : List (String × String)) :
    Json.All p q (attrsDoc pairs) ↔ ∀ a ∈ pairs, p a.1.toList ∧ p a.2.toList := by
  rw [attrsDoc, Json.all_arr, List.forall_mem_map]
  exact forall₂_congr fun a _ => all_attrDoc hp a

/-- The texts of a data point are those of its attributes. -/
theorem all_sumPointDoc (startNs nowNs : ℕ) (point : SumPoint) :
    Json.All p q (sumPointDoc startNs nowNs point)
      ↔ ∀ a ∈ point.attrs, p a.1.toList ∧ p a.2.toList := by
  have hvalue : p "asInt".toList := hp _ (by decide)
  have hstart : p "startTimeUnixNano".toList := hp _ (by decide)
  have htime : p "timeUnixNano".toList := hp _ (by decide)
  have hattrs : p "attributes".toList := hp _ (by decide)
  simp only [sumPointDoc, Json.all_object, List.forall_mem_cons, List.not_mem_nil, all_int64 hp,
    all_attrsDoc hp, hvalue, hstart, htime, hattrs]
  simp

/-- The texts of a sum are those of its points. -/
theorem all_sumDoc (hq : q ['2']) (startNs nowNs : ℕ) {m : SumMetric} (hm : EscCovers m.name.toList) :
    Json.All p q (sumDoc startNs nowNs m)
      ↔ ∀ point ∈ m.points, ∀ a ∈ point.attrs, p a.1.toList ∧ p a.2.toList := by
  have hname : p "name".toList := hp _ (by decide)
  have hunit : p "unit".toList := hp _ (by decide)
  have hone : p "1".toList := hp _ (by decide)
  have hsum : p "sum".toList := hp _ (by decide)
  have htemp : p "aggregationTemporality".toList := hp _ (by decide)
  have hmono : p "isMonotonic".toList := hp _ (by decide)
  have hpoints : p "dataPoints".toList := hp _ (by decide)
  simp only [sumDoc, Json.all_object, List.forall_mem_cons, List.not_mem_nil, Json.all_text,
    Json.all_num, Json.all_bool, Json.all_arr, List.forall_mem_map, all_sumPointDoc hp, hp _ hm,
    hname, hunit, hone, hsum, htemp, hmono, hpoints, hq]
  simp

/-- A gauge adds no text. -/
theorem all_gaugeDoc {name unit : String} {point : Json} (hn : EscCovers name.toList)
    (hu : EscCovers unit.toList) (hpoint : Json.All p q point) :
    Json.All p q (gaugeDoc name unit point) := by
  have hname : p "name".toList := hp _ (by decide)
  have hunit : p "unit".toList := hp _ (by decide)
  have hgauge : p "gauge".toList := hp _ (by decide)
  have hpoints : p "dataPoints".toList := hp _ (by decide)
  simp only [gaugeDoc, Json.all_object, List.forall_mem_cons, List.not_mem_nil, Json.all_text,
    Json.all_arr, hp _ hn, hp _ hu, hname, hunit, hgauge, hpoints, hpoint]
  simp

/-- Nor does its point. -/
theorem all_gaugePointDoc {valueKey : String} {value : Json} (hk : EscCovers valueKey.toList)
    (hv : Json.All p q value) (nowNs : ℕ) : Json.All p q (gaugePointDoc valueKey value nowNs) := by
  have htime : p "timeUnixNano".toList := hp _ (by decide)
  have hattrs : p "attributes".toList := hp _ (by decide)
  simp only [gaugePointDoc, Json.all_object, List.forall_mem_cons, List.not_mem_nil, Json.all_arr,
    all_int64 hp, hp _ hk, hv, htime, hattrs]
  simp

/-- The gauges have no text from outside. -/
theorem all_gaugeDocs [F64Display F] (snap : MetricsSnapshot F) (nowNs : ℕ)
    (hrst : q (F64Display.display snap.rstPerSec).text.toList)
    (hnew : q (F64Display.display snap.newFlowPerSec).text.toList) :
    ∀ j ∈ gaugeDocs snap nowNs, Json.All p q j := by
  have hint : EscCovers "asInt".toList := by decide
  have hdouble : EscCovers "asDouble".toList := by decide
  rw [gaugeDocs]
  refine List.forall_mem_cons.2 ⟨?_, List.forall_mem_cons.2 ⟨?_, List.forall_mem_cons.2 ⟨?_,
    List.forall_mem_singleton.2 ?_⟩⟩⟩
  · exact all_gaugeDoc hp (by decide) (by decide) (all_gaugePointDoc hp hint (all_int64 hp _) nowNs)
  · exact all_gaugeDoc hp (by decide) (by decide) (all_gaugePointDoc hp hint (all_int64 hp _) nowNs)
  · exact all_gaugeDoc hp (by decide) (by decide) (all_gaugePointDoc hp hdouble (.num hrst) nowNs)
  · exact all_gaugeDoc hp (by decide) (by decide) (all_gaugePointDoc hp hdouble (.num hnew) nowNs)

omit hp in
/-- A sum without points is not pushed. -/
theorem forall_mem_pushSum {Q : SumPoint → Prop} (name : String) (points : List SumPoint) :
    (∀ m ∈ pushSum name points, ∀ point ∈ m.points, Q point) ↔ ∀ point ∈ points, Q point := by
  cases points with
  | nil => simp [pushSum]
  | cons point points => simp [pushSum]

/-- The attributes of the sums are the counters' texts. -/
theorem forall_sums_attrs (snap : MetricsSnapshot F) (resourceAttrs : List (String × String)) :
    ((∀ a ∈ resourceAttrs, p a.1.toList ∧ p a.2.toList) ∧
      ∀ m ∈ snap.sums, ∀ point ∈ m.points, ∀ a ∈ point.attrs, p a.1.toList ∧ p a.2.toList)
      ↔ ∀ s ∈ texts snap resourceAttrs, p s.toList := by
  have hkind : p "l4.kind".toList := hp _ (by decide)
  have hseverity : p "severity".toList := hp _ (by decide)
  have hip : p "k8s.pod.ip".toList := hp _ (by decide)
  simp only [MetricsSnapshot.sums, texts, List.forall_mem_append, forall_mem_pushSum,
    MetricsSnapshot.eventPoints, MetricsSnapshot.podEventPoints, MetricsSnapshot.podPacketPoints,
    List.forall_mem_map, List.forall_mem_flatMap, List.forall_mem_cons, hkind, hseverity, hip]
  simp [and_assoc]

/-- The document satisfies `p` if the texts taken from elsewhere do. -/
theorem all_bodyDoc [F64Display F] (snap : MetricsSnapshot F)
    (resourceAttrs : List (String × String)) (startNs nowNs : ℕ) (hq : q ['2'])
    (hrst : q (F64Display.display snap.rstPerSec).text.toList)
    (hnew : q (F64Display.display snap.newFlowPerSec).text.toList) :
    Json.All p q (bodyDoc snap resourceAttrs startNs nowNs)
      ↔ ∀ s ∈ texts snap resourceAttrs, p s.toList := by
  have hmetrics : (∀ j ∈ snap.sums.map (sumDoc startNs nowNs) ++ gaugeDocs snap nowNs,
      Json.All p q j) ↔ ∀ m ∈ snap.sums, ∀ point ∈ m.points, ∀ a ∈ point.attrs,
        p a.1.toList ∧ p a.2.toList := by
    rw [List.forall_mem_append, List.forall_mem_map,
      and_iff_left (all_gaugeDocs hp snap nowNs hrst hnew)]
    exact forall₂_congr fun m hm => all_sumDoc hp hq startNs nowNs (covers_name snap m hm)
  have hresources : p "resourceMetrics".toList := hp _ (by decide)
  have hresource : p "resource".toList := hp _ (by decide)
  have hattrs : p "attributes".toList := hp _ (by decide)
  have hscopes : p "scopeMetrics".toList := hp _ (by decide)
  have hscope : p "scope".toList := hp _ (by decide)
  have hname : p "name".toList := hp _ (by decide)
  have hscopeName : p "l4scope".toList := hp _ (by decide)
  have hversion : p "version".toList := hp _ (by decide)
  have hnumber : p "0.1.0".toList := hp _ (by decide)
  have hkey : p "metrics".toList := hp _ (by decide)
  rw [← forall_sums_attrs hp snap resourceAttrs, ← hmetrics, ← all_attrsDoc hp (q := q)]
  simp only [bodyDoc, Json.all_object, List.forall_mem_cons, List.not_mem_nil, Json.all_text,
    Json.all_arr, hresources, hresource, hattrs, hscopes, hscope, hname, hscopeName, hversion,
    hnumber, hkey]
  simp

end Strings

end Otlp
