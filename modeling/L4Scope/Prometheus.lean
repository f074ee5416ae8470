/-
# The Prometheus text

`render_prometheus` writes one line at a time; the text is the lines in order.
-/
import L4Scope.Registry

variable {F : Type} [F64 F]

/-- A line of the text exposition format. -/
inductive PromLine where
  | help (metric text : String)
  | type (metric kind : String)
  | counter (metric : String) (labels : List (String × String)) (n : ℕ)
  | gauge (metric value : String)
  deriving DecidableEq

/-- The text of a line. -/
def PromLine.text : PromLine → String
  | help metric text => s!"# HELP {metric} {text}\n"
  | type metric kind => s!"# TYPE {metric} {kind}\n"
  | counter metric [] n => s!"{metric} {n}\n"
  | counter metric labels n =>
    let pairs := ",".intercalate (labels.map fun l => l.1 ++ "=\"" ++ l.2 ++ "\"")
    metric ++ "\x7b" ++ pairs ++ "\x7d " ++ toString n ++ "\n"
  | gauge metric value => s!"{metric} {value}\n"

namespace Metrics

/-- The lines of the event counts. -/
def promEvents (m : Metrics F) : List PromLine :=
  m.eventCounts.entries.map fun e =>
    .counter "l4scope_events" [("kind", (ofLex e.1).1), ("severity", (ofLex e.1).2)] e.2

/-- The lines of the pods' event counts. -/
def promPodEvents (m : Metrics F) : List PromLine :=
  m.podEventCounts.entries.map fun e =>
    .counter "l4scope_pod_events" [("pod_ip", (ofLex e.1).1), ("kind", (ofLex (ofLex e.1).2).1),
      ("severity", (ofLex (ofLex e.1).2).2)] e.2

/-- The lines of the pods' packet counts. -/
def promPodPackets (m : Metrics F) : List PromLine :=
  m.podPackets.entries.map fun e => .counter "l4scope_pod_packets_total" [("pod_ip", e.1)] e.2

/-- The lines of the host's counters. -/
def promNode (m : Metrics F) : List PromLine :=
  [PromLine.help "l4scope_packets_total" "Packets processed by the engine.",
    PromLine.type "l4scope_packets_total" "counter",
    PromLine.counter "l4scope_packets_total" [] m.packetsTotal,
    PromLine.help "l4scope_events_total" "L4 anomaly events emitted.",
    PromLine.type "l4scope_events_total" "counter",
    PromLine.counter "l4scope_events_total" [] m.eventsTotal,
    PromLine.help "l4scope_events" "Anomaly events by kind and severity.",
    PromLine.type "l4scope_events" "counter"] ++ m.promEvents

/-- The pod-level lines; one guard stands for both metrics. -/
def promPods (m : Metrics F) : List PromLine :=
  if m.podEventCounts.entries.isEmpty then []
  else
    [PromLine.help "l4scope_pod_events" "Anomaly events by pod, kind and severity.",
      PromLine.type "l4scope_pod_events" "counter"] ++ m.promPodEvents ++
    [PromLine.help "l4scope_pod_packets_total" "Packets processed per pod.",
      PromLine.type "l4scope_pod_packets_total" "counter"] ++ m.promPodPackets

/-- The lines of the gauges. -/
def promGauges (m : Metrics F) : List PromLine :=
  [PromLine.help "l4scope_active_flows" "Flows currently tracked.",
    PromLine.type "l4scope_active_flows" "gauge",
    PromLine.gauge "l4scope_active_flows" (toString m.activeFlows),
    PromLine.help "l4scope_half_open_max" "Max concurrent half-open connections to one service.",
    PromLine.type "l4scope_half_open_max" "gauge",
    PromLine.gauge "l4scope_half_open_max" (toString m.halfOpenMax),
    PromLine.help "l4scope_rst_per_second" "Host-wide TCP RST rate.",
    PromLine.type "l4scope_rst_per_second" "gauge",
    PromLine.gauge "l4scope_rst_per_second" (F64.fixed 3 m.rstPerSec),
    PromLine.help "l4scope_new_flows_per_second" "Host-wide new-flow rate.",
    PromLine.type "l4scope_new_flows_per_second" "gauge",
    PromLine.gauge "l4scope_new_flows_per_second" (F64.fixed 3 m.newFlowPerSec)]

/-- The lines of the Prometheus text. -/
def promLines (m : Metrics F) : List PromLine := m.promNode ++ m.promPods ++ m.promGauges

/-- The Prometheus text. -/
def renderPrometheus (m : Metrics F) : String := String.join (m.promLines.map PromLine.text)

end Metrics
