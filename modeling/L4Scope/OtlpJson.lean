/-
# The OTLP metrics body, read back

The body is the text of a document, so a JSON parser accepts it exactly if the strings in it
survive.  `esc` escapes quotes, backslashes, line feeds, carriage returns and tabs, but no other
control character, and JSON allows none inside a string.
-/
import L4Scope.OtlpDocument

variable {F : Type}

namespace Otlp

open Json (text object)

/-! ## Reading the document -/

/-- The first member with the given key. -/
def field (name : String) : Json → Option Json
  | .obj ms => (ms.find? fun m => m.1 = name.toList).map Prod.snd
  | _ => none

/-- The elements of an array. -/
def items : Json → Option (List Json)
  | .arr xs => some xs
  | _ => none

/-- The text of a string. -/
def string : Json → Option String
  | .str t => some (String.ofList t)
  | _ => none

/-- A 64-bit integer is a string of decimal digits. -/
def integer : Json → Option ℕ
  | .str t => if t ≠ [] ∧ t.all Char.isDigit then some (Nat.ofDigitChars 10 t 0) else none
  | _ => none

/-- Reads an attribute. -/
def attr (j : Json) : Option (String × String) := do
  let key ← string (← field "key" j)
  let value ← string (← field "stringValue" (← field "value" j))
  some (key, value)

/-- Reads an array of attributes. -/
def attrs (j : Json) : Option (List (String × String)) := do (← items j).mapM attr

/-- The item of a list of one. -/
def only (j : Json) : Option Json := do
  match ← items j with
  | [x] => some x
  | _ => none

/-- The attributes of the resource. -/
def resourceAttrs (doc : Json) : Option (List (String × String)) := do
  let resource ← only (← field "resourceMetrics" doc)
  attrs (← field "attributes" (← field "resource" resource))

/-- The metrics of the resource. -/
def metrics (doc : Json) : Option (List Json) := do
  let resource ← only (← field "resourceMetrics" doc)
  let scope ← only (← field "scopeMetrics" resource)
  items (← field "metrics" scope)

/-- Reads a data point of a sum. -/
def sumPoint (j : Json) : Option SumPoint := do
  let value ← integer (← field "asInt" j)
  let attrs ← attrs (← field "attributes" j)
  some ⟨value, attrs⟩

/-- The data points of a metric, if it is the sum with the given name. -/
def metricPoints (name : String) (j : Json) : Option (List SumPoint) := do
  if (← string (← field "name" j)) = name then
    (← items (← field "dataPoints" (← field "sum" j))).mapM sumPoint
  else some []

/-- The data points of all sums with the given name. -/
def sumPoints (name : String) (doc : Json) : Option (List SumPoint) := do
  let points ← (← metrics doc).mapM (metricPoints name)
  some points.flatten

/-- A field is found by its key. -/
theorem field_object_cons (name key : String) (value : Json) (fields : List (String × Json)) :
    field name (object ((key, value) :: fields))
      = if key = name then some value else field name (object fields) := by
  rw [object, List.map_cons, field, List.find?_cons]
  by_cases h : key = name
  · simp [h]
  · have hne : key.toList ≠ name.toList := fun heq => h (String.toList_injective heq)
    simp [h, hne, field, object]

/-- Items read back one by one. -/
theorem mapM_map {α β γ : Type} {f : α → β} {g : β → Option γ} {h : α → γ} (xs : List α)
    (hgf : ∀ x ∈ xs, g (f x) = some (h x)) : (xs.map f).mapM g = some (xs.map h) := by
  induction xs with
  | nil => rfl
  | cons x xs ih =>
      rw [List.map_cons, List.mapM_cons, hgf x List.mem_cons_self,
        ih fun y hy => hgf y (List.mem_cons_of_mem _ hy)]
      rfl

/-- An attribute is read back. -/
theorem attr_attrDoc (p : String × String) : attr (attrDoc p) = some p := by
  simp [attr, attrDoc, field_object_cons, string, text]

/-- So are attributes. -/
theorem attrs_attrsDoc (pairs : List (String × String)) : attrs (attrsDoc pairs) = some pairs := by
  have hitems := mapM_map (h := id) pairs fun p _ => attr_attrDoc p
  rwa [List.map_id] at hitems

/-- So is a number in a string. -/
theorem integer_int64 (n : ℕ) : integer (int64 n) = some n := by
  have hdigits : (toString n).toList = Nat.toDigits 10 n := by
    rw [Nat.toString_eq_repr, Nat.toList_repr]
  rw [int64, text, hdigits, integer,
    if_pos ⟨Nat.toDigits_ne_nil, List.all_eq_true.2 Json.isDigit_of_toDigits⟩,
    Nat.ofDigitChars_ten_toDigits]

/-- So is a data point. -/
theorem sumPoint_sumPointDoc (startNs nowNs : ℕ) (p : SumPoint) :
    sumPoint (sumPointDoc startNs nowNs p) = some p := by
  simp [sumPoint, sumPointDoc, field_object_cons, integer_int64, attrs_attrsDoc]

/-- The resource attributes of the body. -/
theorem resourceAttrs_bodyDoc [F64Display F] (snap : MetricsSnapshot F)
    (pairs : List (String × String)) (startNs nowNs : ℕ) :
    resourceAttrs (bodyDoc snap pairs startNs nowNs) = some pairs := by
  simp [resourceAttrs, bodyDoc, field_object_cons, only, items, attrs_attrsDoc]

/-- The metrics of the body. -/
theorem metrics_bodyDoc [F64Display F] (snap : MetricsSnapshot F)
    (pairs : List (String × String)) (startNs nowNs : ℕ) :
    metrics (bodyDoc snap pairs startNs nowNs)
      = some (snap.sums.map (sumDoc startNs nowNs) ++ gaugeDocs snap nowNs) := by
  simp [metrics, bodyDoc, field_object_cons, only, items]

/-- A sum has the points of its own name. -/
theorem metricPoints_sumDoc (name : String) (startNs nowNs : ℕ) (m : SumMetric) :
    metricPoints name (sumDoc startNs nowNs m) = some (if m.name = name then m.points else []) := by
  have hpoints := mapM_map (h := id) m.points
    fun p _ => sumPoint_sumPointDoc startNs nowNs p
  rw [List.map_id] at hpoints
  by_cases hname : m.name = name
  · simp [metricPoints, sumDoc, field_object_cons, string, text, items, hname, hpoints]
  · simp [metricPoints, sumDoc, field_object_cons, string, text, hname]

/-- A gauge has no points of a sum. -/
theorem metricPoints_gaugeDocs [F64Display F] {name : String}
    (hname : name ∉ ["l4scope.active_flows", "l4scope.half_open_max", "l4scope.rst_per_second",
      "l4scope.new_flows_per_second"]) (snap : MetricsSnapshot F) (nowNs : ℕ) :
    (gaugeDocs snap nowNs).mapM (metricPoints name) = some [[], [], [], []] := by
  have hgauge : ∀ gauge unit point, gauge ≠ name →
      metricPoints name (gaugeDoc gauge unit point) = some [] := by
    intro gauge unit point hne
    simp [metricPoints, gaugeDoc, field_object_cons, string, text, hne]
  simp only [List.mem_cons, List.not_mem_nil, or_false, not_or] at hname
  obtain ⟨hflows, hopen, hrst, hnew⟩ := hname
  simp [gaugeDocs, hgauge _ _ _ (Ne.symm hflows), hgauge _ _ _ (Ne.symm hopen),
    hgauge _ _ _ (Ne.symm hrst), hgauge _ _ _ (Ne.symm hnew)]

/-- The points of a sum in the body. -/
theorem sumPoints_bodyDoc [F64Display F] {name : String}
    (hname : name ∉ ["l4scope.active_flows", "l4scope.half_open_max", "l4scope.rst_per_second",
      "l4scope.new_flows_per_second"]) (snap : MetricsSnapshot F)
    (pairs : List (String × String)) (startNs nowNs : ℕ) :
    sumPoints name (bodyDoc snap pairs startNs nowNs)
      = some (snap.sums.flatMap fun m => if m.name = name then m.points else []) := by
  have hsums := mapM_map snap.sums
    fun m _ => metricPoints_sumDoc name startNs nowNs m
  rw [sumPoints, metrics_bodyDoc]
  simp [List.mapM_append, hsums, metricPoints_gaugeDocs hname, List.flatMap]

/-- A sum's points are found under its name. -/
theorem flatMap_pushSum (name name' : String) (points : List SumPoint) :
    ((pushSum name' points).flatMap fun m => if m.name = name then m.points else [])
      = if name' = name then points else [] := by
  cases points with
  | nil => simp [pushSum]
  | cons point points => simp [pushSum]

/-! ## The times of the data points -/

/-- The data points of a sum, as they stand in the document. -/
def sumItems (j : Json) : List Json :=
  (((field "sum" j).bind (field "dataPoints")).bind items).getD []

/-- The start time and the time of a data point. -/
def pointTimes (j : Json) : Option (ℕ × ℕ) := do
  let start ← integer (← field "startTimeUnixNano" j)
  let time ← integer (← field "timeUnixNano" j)
  some (start, time)

/-- All data points of the sums have the two times of the body. -/
theorem pointTimes_bodyDoc [F64Display F] {snap : MetricsSnapshot F}
    {pairs : List (String × String)} {startNs nowNs : ℕ} {ms : List Json}
    (h : metrics (bodyDoc snap pairs startNs nowNs) = some ms) :
    ∀ j ∈ ms, ∀ x ∈ sumItems j, pointTimes x = some (startNs, nowNs) := by
  rw [metrics_bodyDoc, Option.some.injEq] at h
  rw [← h]
  refine List.forall_mem_append.2 ⟨List.forall_mem_map.2 fun m _ => ?_, ?_⟩
  · have hitems : sumItems (sumDoc startNs nowNs m) = m.points.map (sumPointDoc startNs nowNs) := by
      simp [sumItems, sumDoc, field_object_cons, items]
    rw [hitems, List.forall_mem_map]
    intro p _
    simp [pointTimes, sumPointDoc, field_object_cons, integer_int64]
  · have hgauge : ∀ name unit point, sumItems (gaugeDoc name unit point) = [] := by
      intro name unit point
      simp [sumItems, gaugeDoc, object, field]
    simp [gaugeDocs, hgauge]

/-! ## The body carries its data -/

/-- The document has the resource attributes, and each counter as one data point of its sum. -/
structure Carries (doc : Json) (snap : MetricsSnapshot F) (pairs : List (String × String)) :
    Prop where
  resource : resourceAttrs doc = some pairs
  packets : sumPoints "l4scope.packets" doc = some [⟨snap.packetsTotal, []⟩]
  events : sumPoints "l4scope.events" doc = some (snap.eventCounts.map
    fun (kind, severity, n) => ⟨n, [("l4.kind", kind), ("severity", severity)]⟩)
  podEvents : sumPoints "l4scope.pod.events" doc = some (snap.podEventCounts.map
    fun (ip, kind, severity, n) =>
      ⟨n, [("k8s.pod.ip", ip), ("l4.kind", kind), ("severity", severity)]⟩)
  podPackets : sumPoints "l4scope.pod.packets" doc = some (snap.podPackets.map
    fun (ip, n) => ⟨n, [("k8s.pod.ip", ip)]⟩)

/-- **The document of the body carries the snapshot.** -/
theorem carries_bodyDoc [F64Display F] (snap : MetricsSnapshot F)
    (pairs : List (String × String)) (startNs nowNs : ℕ) :
    Carries (bodyDoc snap pairs startNs nowNs) snap pairs := by
  constructor
  · exact resourceAttrs_bodyDoc snap pairs startNs nowNs
  · rw [sumPoints_bodyDoc (by decide)]
    simp [MetricsSnapshot.sums, flatMap_pushSum]
  · rw [sumPoints_bodyDoc (by decide)]
    simp [MetricsSnapshot.sums, flatMap_pushSum, MetricsSnapshot.eventPoints]
  · rw [sumPoints_bodyDoc (by decide)]
    simp [MetricsSnapshot.sums, flatMap_pushSum, MetricsSnapshot.podEventPoints]
  · rw [sumPoints_bodyDoc (by decide)]
    simp [MetricsSnapshot.sums, flatMap_pushSum, MetricsSnapshot.podPacketPoints]

/-- A finite number is displayed as JSON writes it. -/
theorem isNumber_text {x : F64Text} (h : x.Finite) : Json.IsNumber x.text.toList := by
  cases x with
  | nan => exact absurd h id
  | inf negative => exact absurd h id
  | decimal negative whole fraction =>
      have htext : (F64Text.decimal negative whole fraction).text.toList
          = Json.decimal negative whole (fraction.map fun d : Fin 10 => d.val.digitChar) := by
        cases negative <;> cases fraction <;>
          simp [F64Text.text, Json.decimal]
      rw [htext]
      refine Json.isNumber_decimal ?_
      intro c hc
      obtain ⟨d, -, rfl⟩ := List.mem_map.1 hc
      rw [Nat.isDigit_digitChar]
      exact decide_eq_true d.isLt

/-- A body that is accepted has no text with a control character that `esc` leaves alone. -/
theorem covers_of_parse [F64Display F] {snap : MetricsSnapshot F}
    {pairs : List (String × String)} {startNs nowNs : ℕ} {doc : Json}
    (h : Json.parse (buildBody snap pairs startNs nowNs) = some doc) :
    ∀ s ∈ texts snap pairs, EscCovers s.toList := by
  have htext : buildBody snap pairs startNs nowNs
      = String.ofList (Json.print escChars (bodyDoc snap pairs startNs nowNs)) := by
    rw [← writes_buildBody snap pairs startNs nowNs, String.ofList_toList]
  rw [htext] at h
  have hall := (all_bodyDoc (fun _ => plain_of_covers) snap pairs startNs nowNs trivial trivial
    trivial).1 (Json.all_plain_of_parse h)
  exact fun s hs => covers_of_plain (hall s hs)

/-- A body whose texts are all covered is read back. -/
theorem parse_of_covers [F64Display F] {snap : MetricsSnapshot F}
    {pairs : List (String × String)} (startNs nowNs : ℕ)
    (hrst : (F64Display.display snap.rstPerSec).Finite)
    (hnew : (F64Display.display snap.newFlowPerSec).Finite)
    (h : ∀ s ∈ texts snap pairs, EscCovers s.toList) :
    Json.parse (buildBody snap pairs startNs nowNs) = some (bodyDoc snap pairs startNs nowNs) := by
  have htext : buildBody snap pairs startNs nowNs
      = String.ofList (Json.print escChars (bodyDoc snap pairs startNs nowNs)) := by
    rw [← writes_buildBody snap pairs startNs nowNs, String.ofList_toList]
  have htwo : Json.IsNumber (Json.decimal false 2 []) := Json.isNumber_decimal (by simp)
  rw [htext]
  exact Json.parse_print ((all_bodyDoc (fun _ => readsBack_of_covers) snap pairs startNs nowNs htwo
    (isNumber_text hrst) (isNumber_text hnew)).2 fun s hs => readsBack_of_covers (h s hs))

/-- **The body is a JSON text that carries its data exactly if `esc` covers the control characters
of the texts in it.** -/
theorem body_carries_iff [F64Display F] (snap : MetricsSnapshot F) (pairs : List (String × String))
    (startNs nowNs : ℕ) (hrst : (F64Display.display snap.rstPerSec).Finite)
    (hnew : (F64Display.display snap.newFlowPerSec).Finite) :
    (∃ doc, Json.parse (buildBody snap pairs startNs nowNs) = some doc ∧ Carries doc snap pairs)
      ↔ ∀ s ∈ texts snap pairs, EscCovers s.toList := by
  constructor
  · rintro ⟨doc, hparse, -⟩
    exact covers_of_parse hparse
  · intro h
    exact ⟨_, parse_of_covers startNs nowNs hrst hnew h, carries_bodyDoc snap pairs startNs nowNs⟩

/-- Texts display themselves. -/
instance : F64Display F64Text := ⟨id⟩

/-- A pod's counters and two plain attributes. -/
theorem body_carries_pod :
    let snap : MetricsSnapshot F64Text := ⟨100, 2, [("retransmission", "warning", 2)],
      [("10.244.0.5", "zero_window", "warning", 1)], [("10.244.0.5", 50)], 4, 1,
      .decimal false 0 [], .decimal false 3 []⟩
    let pairs := [("service.name", "l4scope"), ("k8s.node.name", "node-1")]
    ∃ doc, Json.parse (buildBody snap pairs 1 2) = some doc ∧ Carries doc snap pairs := by
  intro snap pairs
  have hrst : (F64Display.display snap.rstPerSec).Finite := trivial
  have hnew : (F64Display.display snap.newFlowPerSec).Finite := trivial
  exact (body_carries_iff snap pairs 1 2 hrst hnew).2 (by decide)

/-- The host name of a node, with an escape character in it. -/
theorem body_rejected_hostname :
    let snap : MetricsSnapshot F64Text := ⟨0, 0, [], [], [], 0, 0, .decimal false 0 [],
      .decimal false 0 []⟩
    let pairs := [("service.name", "l4scope"), ("host.name", "node\x1b")]
    ¬ ∃ doc, Json.parse (buildBody snap pairs 1 2) = some doc ∧ Carries doc snap pairs := by
  rintro snap pairs ⟨doc, hparse, -⟩
  exact absurd (covers_of_parse hparse "node\x1b" (by decide)) (by decide)

end Otlp
