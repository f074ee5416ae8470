/-
# The configuration text

The agent's configuration and the parser of its TOML subset: comments, `[section]` headers
and `key = value` lines, laid over the defaults line by line.  Unknown keys and values of the
wrong type are rejected, with the number of the line.

Every error is of the kind `Error::Config`; only its text is kept.  Reading a floating-point
number is a parameter, `parseF64`.
-/
import L4Scope.Config
import Mathlib.Data.List.DropRight

/-! ## The configuration -/

/-- Which capture backend to use. -/
inductive Backend where
  | pcapFile
  | synthetic
  | live
  | ebpf
  | etw
  deriving DecidableEq, Repr

/-- Where packets come from. -/
structure CaptureConfig where
  backend : Backend
  /-- Interface name for live/eBPF/ETW backends. -/
  interface : String
  /-- BPF filter expression for the live backend. -/
  filter : String
  /-- Path for the pcap_file backend. -/
  pcapPath : String
  /-- Override the live capture command. -/
  liveCommand : String
  deriving DecidableEq

/-- Where the results go. -/
structure ExportConfig where
  /-- `host:port` to serve Prometheus; empty = off. -/
  prometheusAddr : String
  /-- Where to write NDJSON events: `stdout`, `stderr`, empty (off), or a path. -/
  jsonEvents : String
  deriving DecidableEq

/-- The push to a Collector. -/
structure OtlpConfig where
  /-- Enable the OTLP push exporter. -/
  enabled : Bool
  endpoint : String
  /-- Metrics path appended to `endpoint`. -/
  path : String
  /-- Push interval in seconds. -/
  intervalSecs : ℕ
  /-- Extra HTTP headers as `k=v,k=v`. -/
  headers : String
  /-- Resource attributes as `k=v,k=v`. -/
  resourceAttributes : String
  serviceName : String
  /-- The CIDRs of the pods, comma-separated; empty = off. -/
  podCidrs : String
  /-- Master switch for pod-level attribution. -/
  podAttribution : Bool
  deriving DecidableEq

/-- Top-level agent configuration. -/
structure Config (F : Type) where
  capture : CaptureConfig
  detect : DetectConfig F
  exports : ExportConfig
  otlp : OtlpConfig

/-- The configuration of an empty file. -/
def Config.default (F : Type) [F64 F] : Config F where
  capture :=
    { backend := .synthetic
      interface := ""
      filter := "tcp or udp"
      pcapPath := ""
      liveCommand := "" }
  detect := DetectConfig.default F
  exports :=
    { prometheusAddr := "127.0.0.1:9560"
      jsonEvents := "stdout" }
  otlp :=
    { enabled := false
      endpoint := "http://localhost:4318"
      path := "/v1/metrics"
      intervalSecs := 15
      headers := ""
      resourceAttributes := ""
      serviceName := "l4scope"
      podCidrs := ""
      podAttribution := false }

/-! ## Texts -/

/-- The characters with the property `White_Space`. -/
def isWhitespace (c : Char) : Bool :=
  let n := c.toNat
  (9 ≤ n && n ≤ 13) || n = 0x20 || n = 0x85 || n = 0xa0 || n = 0x1680 ||
    (0x2000 ≤ n && n ≤ 0x200a) || n = 0x2028 || n = 0x2029 || n = 0x202f || n = 0x205f ||
    n = 0x3000

/-- Strips white space on both sides. -/
def trim (s : List Char) : List Char := (s.dropWhile isWhitespace).rdropWhile isWhitespace

/-- `s.strip_prefix(c)`. -/
def stripFirst (c : Char) (s : List Char) : Option (List Char) :=
  if s.head? = some c then some s.tail else none

/-- `s.strip_suffix(c)`. -/
def stripLast (c : Char) (s : List Char) : Option (List Char) :=
  if s.getLast? = some c then some s.dropLast else none

/-- `text.split_inclusive('\n')`. -/
def splitInclusive : List Char → List (List Char)
  | [] => []
  | c :: s =>
    if c = '\n' then [c] :: splitInclusive s
    else
      match splitInclusive s with
      | [] => [[c]]
      | line :: rest => (c :: line) :: rest

/-- A line without its ending, LF or CR LF. -/
def stripEnding (line : List Char) : List Char :=
  match stripLast '\n' line with
  | none => line
  | some line => (stripLast '\r' line).getD line

/-- The lines of a text, without their endings. -/
def lines (text : List Char) : List (List Char) := (splitInclusive text).map stripEnding

/-- `s.split_once(c)`. -/
def splitOnce (c : Char) (s : List Char) : Option (List Char × List Char) :=
  if c ∈ s then some (s.takeWhile (· ≠ c), (s.dropWhile (· ≠ c)).tail) else none

/-! ## Values -/

/-- A simple cut at the first `#`, also inside quotes. -/
def stripComment (line : List Char) : List Char := line.takeWhile (· ≠ '#')

/-- A value that starts and ends with a quote is at least two bytes long unless it is the one
quote. -/
def unquote (v : List Char) : String :=
  let v := trim v
  if 2 ≤ v.length ∧ v.head? = some '"' ∧ v.getLast? = some '"' then String.ofList v.tail.dropLast
  else String.ofList v

/-- The backend with this name. -/
def Backend.parse (s : String) : Except String Backend :=
  match s with
  | "pcap_file" | "pcap" => .ok pcapFile
  | "synthetic" | "demo" => .ok synthetic
  | "live" | "tcpdump" => .ok live
  | "ebpf" => .ok ebpf
  | "etw" => .ok etw
  | other => .error s!"unknown backend '{other}'"

/-- A truth value in one of its spellings. -/
def parseBool (v : String) : Except String Bool :=
  match v with
  | "true" => .ok true
  | "false" => .ok false
  | _ => .error s!"expected true/false, got '{v}'"

/-- The number a string of decimal digits denotes. -/
def decimal (ds : List Char) : ℕ := ds.foldl (fun n c => 10 * n + (c.toNat - '0'.toNat)) 0

/-- `v.parse()` at an unsigned type of `w` bits: an optional `+`, digits, no overflow. -/
def parseUnsigned (w : ℕ) (v : List Char) : Option ℕ :=
  let ds := (stripFirst '+' v).getD v
  if ds ≠ [] ∧ ds.all Char.isDigit ∧ decimal ds < 2 ^ w then some (decimal ds) else none

/-- A 64-bit number in decimal. -/
def parseU64 (v : List Char) : Except String ℕ :=
  match parseUnsigned 64 v with
  | some n => .ok n
  | none => .error s!"expected integer, got '{String.ofList v}'"

/-- A 32-bit number in decimal. -/
def parseU32 (v : List Char) : Except String UInt32 :=
  match parseUnsigned 32 v with
  | some n => .ok (.ofNat n)
  | none => .error s!"expected integer, got '{String.ofList v}'"

variable {F : Type} (parseF64 : List Char → Option F)

/-- A floating-point number. -/
def parseNumber (v : List Char) : Except String F :=
  match parseF64 v with
  | some x => .ok x
  | none => .error s!"expected number, got '{String.ofList v}'"

/-! ## Lines -/

/-- Assign the value to the key of the section. -/
def apply (cfg : Config F) (sec key : String) (val : List Char) : Except String (Config F) :=
  match sec, key with
  | "capture", "backend" => do return { cfg with capture.backend := ← Backend.parse (unquote val) }
  | "capture", "interface" => return { cfg with capture.interface := unquote val }
  | "capture", "filter" => return { cfg with capture.filter := unquote val }
  | "capture", "pcap_path" => return { cfg with capture.pcapPath := unquote val }
  | "capture", "live_command" => return { cfg with capture.liveCommand := unquote val }
  | "detect", "flow_ttl_secs" => do return { cfg with detect.flowTtlSecs := ← parseU64 val }
  | "detect", "retransmit_ratio_warn" => do
    return { cfg with detect.retransmitRatioWarn := ← parseNumber parseF64 val }
  | "detect", "dup_ack_threshold" => do return { cfg with detect.dupAckThreshold := ← parseU32 val }
  | "detect", "rst_storm_per_sec" => do
    return { cfg with detect.rstStormPerSec := ← parseNumber parseF64 val }
  | "detect", "syn_backlog_threshold" => do
    return { cfg with detect.synBacklogThreshold := ← parseU32 val }
  | "detect", "rtt_warn_ms" => do
    return { cfg with detect.rttWarnMs := ← parseNumber parseF64 val }
  | "detect", "handshake_timeout_secs" => do
    return { cfg with detect.handshakeTimeoutSecs := ← parseU64 val }
  | "detect", "churn_per_sec" => do
    return { cfg with detect.churnPerSec := ← parseNumber parseF64 val }
  | "detect", "alert_debounce_secs" => do
    return { cfg with detect.alertDebounceSecs := ← parseU64 val }
  | "export", "prometheus_addr" => return { cfg with exports.prometheusAddr := unquote val }
  | "export", "json_events" => return { cfg with exports.jsonEvents := unquote val }
  | "otlp", "enabled" => do return { cfg with otlp.enabled := ← parseBool (unquote val) }
  | "otlp", "endpoint" => return { cfg with otlp.endpoint := unquote val }
  | "otlp", "path" => return { cfg with otlp.path := unquote val }
  | "otlp", "interval_secs" => do return { cfg with otlp.intervalSecs := ← parseU64 val }
  | "otlp", "headers" => return { cfg with otlp.headers := unquote val }
  | "otlp", "resource_attributes" => return { cfg with otlp.resourceAttributes := unquote val }
  | "otlp", "service_name" => return { cfg with otlp.serviceName := unquote val }
  | "otlp", "pod_cidrs" => return { cfg with otlp.podCidrs := unquote val }
  | "otlp", "pod_attribution" => do
    return { cfg with otlp.podAttribution := ← parseBool (unquote val) }
  | _, _ => .error s!"unknown key '[{sec}] {key}'"

/-- The configuration so far and the section the next line belongs to. -/
structure Layer (F : Type) where
  cfg : Config F
  sec : String

/-- The name in a section header. -/
def sectionHeader (line : List Char) : Option (List Char) :=
  (stripFirst '[' line).bind (stripLast ']')

/-- The body of the loop over the lines, counted from 0. -/
def parseLine (lineno : ℕ) (l : Layer F) (raw : List Char) : Except String (Layer F) :=
  let line := trim (stripComment raw)
  if line = [] then .ok l
  else
    match sectionHeader line with
    | some name => .ok { l with sec := String.ofList (trim name) }
    | none =>
      match splitOnce '=' line with
      | none => .error s!"line {lineno + 1}: expected key = value"
      | some (k, v) =>
        match apply parseF64 l.cfg l.sec (String.ofList (trim k)) (trim v) with
        | .ok cfg => .ok { l with cfg }
        | .error e => .error s!"line {lineno + 1}: config error: {e}"

/-- Lays lines over a configuration, up to the first bad one. -/
def parseLines (lineno : ℕ) (l : Layer F) : List (List Char) → Except String (Layer F)
  | [] => .ok l
  | raw :: rest =>
    match parseLine parseF64 lineno l raw with
    | .ok l' => parseLines (lineno + 1) l' rest
    | .error e => .error e

/-- Parse from an in-memory string, layering over defaults. -/
def fromStr [F64 F] (text : List Char) : Except String (Config F) :=
  (parseLines parseF64 0 ⟨Config.default F, ""⟩ (lines text)).map Layer.cfg

/-! ## Numbers in range -/

/-- A number that is read has at most `w` bits. -/
theorem parseUnsigned_lt {w : ℕ} {v : List Char} {n : ℕ} (h : parseUnsigned w v = some n) :
    n < 2 ^ w := by
  unfold parseUnsigned at h
  dsimp only at h
  split_ifs at h with hds
  rw [← Option.some.inj h]
  exact hds.2.2

/-- A `u64` is below 2^64. -/
theorem parseU64_lt {v : List Char} {n : ℕ} (h : parseU64 v = .ok n) : n < 2 ^ 64 := by
  unfold parseU64 at h
  cases hn : parseUnsigned 64 v with
  | none =>
      rw [hn] at h
      cases h
  | some m =>
      rw [hn] at h
      cases h
      exact parseUnsigned_lt hn

/-- The `u64` fields are 64-bit numbers. -/
structure Config.Fits (cfg : Config F) : Prop where
  flowTtl : cfg.detect.flowTtlSecs < 2 ^ 64
  handshakeTimeout : cfg.detect.handshakeTimeoutSecs < 2 ^ 64
  alertDebounce : cfg.detect.alertDebounceSecs < 2 ^ 64
  interval : cfg.otlp.intervalSecs < 2 ^ 64

/-- The defaults fit. -/
theorem Config.default_fits [F64 F] : (Config.default F).Fits where
  flowTtl := show 120 < 2 ^ 64 by decide
  handshakeTimeout := show 3 < 2 ^ 64 by decide
  alertDebounce := show 10 < 2 ^ 64 by decide
  interval := show 15 < 2 ^ 64 by decide
