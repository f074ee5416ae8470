/-
# Events as text

The names of the event kinds and severities, the NDJSON line of an event (`to_json`), and the
sink that writes one line for each event.
-/
import L4Scope.Types

/-! ## Names -/

/-- The name of a kind. -/
def EventKind.asStr : EventKind → String
  | retransmission => "retransmission"
  | duplicateAck => "duplicate_ack"
  | outOfOrder => "out_of_order"
  | zeroWindow => "zero_window"
  | rstStorm => "rst_storm"
  | handshakeFailure => "handshake_failure"
  | handshakeTimeout => "handshake_timeout"
  | synBacklog => "syn_backlog"
  | highRtt => "high_rtt"
  | connectionChurn => "connection_churn"

/-- The name of a severity. -/
def Severity.asStr : Severity → String
  | info => "info"
  | warning => "warning"
  | critical => "critical"

/-- Kinds have different names. -/
theorem EventKind.asStr_injective : Function.Injective EventKind.asStr := by
  intro a b h
  cases a <;> cases b <;> first | rfl | exact absurd h (by decide)

/-- Severities have different names. -/
theorem Severity.asStr_injective : Function.Injective Severity.asStr := by
  intro a b h
  cases a <;> cases b <;> first | rfl | exact absurd h (by decide)

/-! ## The NDJSON line -/

/-- What `json_escape` pushes for one character. -/
def escapeChar (c : Char) : List Char :=
  match c with
  | '"' => ['\\', '"']
  | '\\' => ['\\', '\\']
  | '\n' => ['\\', 'n']
  | '\t' => ['\\', 't']
  | '\r' => ['\\', 'r']
  | c => [c]

/-- Escapes a text for a JSON string. -/
def jsonEscape (s : String) : String := String.ofList (s.toList.flatMap escapeChar)

/-- Render as a single NDJSON line. -/
def L4Event.toJson {F : Type} [F64 F] (ev : L4Event F) : String :=
  let value := F64.fixed 3 ev.value
  let detail := jsonEscape ev.detail
  "\x7b\"ts_ns\":" ++ toString ev.tsNanos ++ ",\"kind\":\"" ++ ev.kind.asStr
    ++ "\",\"severity\":\"" ++ ev.severity.asStr ++ "\",\"proto\":\"" ++ ev.key.proto.asStr
    ++ "\",\"low\":\"" ++ toString ev.key.low ++ "\",\"high\":\"" ++ toString ev.key.high
    ++ "\",\"value\":" ++ value ++ ",\"detail\":\"" ++ detail ++ "\"\x7d"

/-! ## The sink -/

/-- Where the event lines go. -/
inductive JsonTarget where
  | off
  | stdout
  | stderr
  | file
  deriving DecidableEq

/-- An event sink and the lines it has written. -/
structure JsonSink where
  target : JsonTarget
  lines : List String

namespace JsonSink

/-- A sink that has not written anything. -/
def new (target : JsonTarget) : JsonSink := { target, lines := [] }

/-- One line for each event, unless the sink is off. -/
def emit {F : Type} [F64 F] (sink : JsonSink) (ev : L4Event F) : JsonSink :=
  match sink.target with
  | .off => sink
  | .stdout | .stderr | .file => { sink with lines := sink.lines ++ [ev.toJson] }

@[simp] theorem emit_target {F : Type} [F64 F] (sink : JsonSink) (ev : L4Event F) :
    (sink.emit ev).target = sink.target := by
  rw [emit]
  cases h : sink.target <;> simp [h]

/-- An event adds its line, unless the log is off. -/
theorem emit_lines {F : Type} [F64 F] (sink : JsonSink) (ev : L4Event F) :
    (sink.emit ev).lines
      = if sink.target = .off then sink.lines else sink.lines ++ [ev.toJson] := by
  rw [emit]
  cases h : sink.target <;> simp

end JsonSink
