/-
# The OTLP metrics body

`build_body` assembles the JSON text of an export from format strings.  The functions carry the
source's names; the text of each format string is written out.
-/
import L4Scope.Registry

variable {F : Type}

/-! ## Displayed floating-point numbers -/

/-- What `{}` displays for an `f64`: its shortest decimal, never in exponent notation. -/
inductive F64Text where
  | nan
  | inf (negative : Bool)
  | decimal (negative : Bool) (whole : ℕ) (fraction : List (Fin 10))
  deriving DecidableEq

/-- The text that Rust displays. -/
def F64Text.text : F64Text → String
  | nan => "NaN"
  | inf negative => (if negative then "-" else "") ++ "inf"
  | decimal negative whole fraction =>
    let point := if fraction.isEmpty then "" else "."
    (if negative then "-" else "") ++ toString whole ++ point
      ++ String.ofList (fraction.map fun d : Fin 10 => d.val.digitChar)

/-- Numbers with a `Display`. -/
class F64Display (F : Type) where
  display : F → F64Text

/-- The number is neither infinite nor NaN. -/
def F64Text.Finite : F64Text → Prop
  | decimal _ _ _ => True
  | _ => False

/-! ## Pieces of the body -/

/-- The same match as `json_escape`. -/
def esc (s : String) : String := jsonEscape s

/-- An attribute with a text value. -/
def attrStr (key val : String) : String :=
  "\x7b\"key\":\"" ++ esc key ++ "\",\"value\":\x7b\"stringValue\":\"" ++ esc val ++ "\"\x7d\x7d"

/-- An array of attributes. -/
def attrsArray (pairs : List (String × String)) : String :=
  "[" ++ ",".intercalate (pairs.map fun p => attrStr p.1 p.2) ++ "]"

/-- A data point of a sum. -/
def sumDpInt (value startNs nowNs : ℕ) (attrs : String) : String :=
  "\x7b\"asInt\":\"" ++ toString value ++ "\",\"startTimeUnixNano\":\"" ++ toString startNs
    ++ "\",\"timeUnixNano\":\"" ++ toString nowNs ++ "\",\"attributes\":" ++ attrs ++ "\x7d"

/-- A data point of a gauge with a whole number. -/
def gaugeDpInt (value nowNs : ℕ) : String :=
  "\x7b\"asInt\":\"" ++ toString value ++ "\",\"timeUnixNano\":\"" ++ toString nowNs
    ++ "\",\"attributes\":[]\x7d"

/-- A data point of a gauge with a floating-point number. -/
def gaugeDpDouble [F64Display F] (value : F) (nowNs : ℕ) : String :=
  "\x7b\"asDouble\":" ++ (F64Display.display value).text ++ ",\"timeUnixNano\":\"" ++ toString nowNs
    ++ "\",\"attributes\":[]\x7d"

/-- A cumulative monotonic sum. -/
def metricSum (name unit : String) (dps : List String) : String :=
  "\x7b\"name\":\"" ++ name ++ "\",\"unit\":\"" ++ unit
    ++ "\",\"sum\":\x7b\"aggregationTemporality\":2,\"isMonotonic\":true,\"dataPoints\":["
    ++ ",".intercalate dps ++ "]\x7d\x7d"

/-- A gauge. -/
def metricGauge (name unit : String) (dps : List String) : String :=
  "\x7b\"name\":\"" ++ name ++ "\",\"unit\":\"" ++ unit ++ "\",\"gauge\":\x7b\"dataPoints\":["
    ++ ",".intercalate dps ++ "]\x7d\x7d"

/-! ## The sums of a snapshot -/

/-- A data point of a sum. -/
structure SumPoint where
  value : ℕ
  attrs : List (String × String)
  deriving DecidableEq

/-- A sum, as it is pushed to the list of metrics. -/
structure SumMetric where
  name : String
  points : List SumPoint
  deriving DecidableEq

/-- `if !dps.is_empty() { metrics.push(..) }`. -/
def pushSum (name : String) (points : List SumPoint) : List SumMetric :=
  if points.isEmpty then [] else [⟨name, points⟩]

namespace MetricsSnapshot

/-- The points of the event counts. -/
def eventPoints (snap : MetricsSnapshot F) : List SumPoint :=
  snap.eventCounts.map fun e => ⟨e.2.2, [("l4.kind", e.1), ("severity", e.2.1)]⟩

/-- The points of the pods' event counts. -/
def podEventPoints (snap : MetricsSnapshot F) : List SumPoint :=
  snap.podEventCounts.map fun e =>
    ⟨e.2.2.2, [("k8s.pod.ip", e.1), ("l4.kind", e.2.1), ("severity", e.2.2.1)]⟩

/-- The points of the pods' packet counts. -/
def podPacketPoints (snap : MetricsSnapshot F) : List SumPoint :=
  snap.podPackets.map fun e => ⟨e.2, [("k8s.pod.ip", e.1)]⟩

/-- The sums of the body, in order. -/
def sums (snap : MetricsSnapshot F) : List SumMetric :=
  [⟨"l4scope.packets", [⟨snap.packetsTotal, []⟩]⟩]
    ++ pushSum "l4scope.events" snap.eventPoints
    ++ pushSum "l4scope.pod.events" snap.podEventPoints
    ++ pushSum "l4scope.pod.packets" snap.podPacketPoints

end MetricsSnapshot

/-- The metric as text. -/
def SumMetric.text (startNs nowNs : ℕ) (m : SumMetric) : String :=
  metricSum m.name "1" (m.points.map fun p => sumDpInt p.value startNs nowNs (attrsArray p.attrs))

/-- The body of a push. -/
def buildBody [F64Display F] (snap : MetricsSnapshot F) (resourceAttrs : List (String × String))
    (startNs nowNs : ℕ) : String :=
  let metrics := snap.sums.map (SumMetric.text startNs nowNs) ++
    [metricGauge "l4scope.active_flows" "1" [gaugeDpInt snap.activeFlows nowNs],
      metricGauge "l4scope.half_open_max" "1" [gaugeDpInt snap.halfOpenMax nowNs],
      metricGauge "l4scope.rst_per_second" "1/s" [gaugeDpDouble snap.rstPerSec nowNs],
      metricGauge "l4scope.new_flows_per_second" "1/s" [gaugeDpDouble snap.newFlowPerSec nowNs]]
  let resAttrItems := resourceAttrs.map fun p => attrStr p.1 p.2
  "\x7b\"resourceMetrics\":[\x7b\"resource\":\x7b\"attributes\":[" ++ ",".intercalate resAttrItems
    ++ "]\x7d,\"scopeMetrics\":[\x7b\"scope\":\x7b\"name\":\"l4scope\",\"version\":\"0.1.0\"\x7d,\"metrics\":["
    ++ ",".intercalate metrics ++ "]\x7d]\x7d]\x7d"
