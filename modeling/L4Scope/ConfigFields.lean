/-
# The fields of the configuration

The configuration as a record that is known by its fields (`Config.fields`), each with a type
that says which values are read for it and the section and key it is assigned under.  Assigning
a value to a key is looking the field up, reading the value at its type and setting the field
(`apply_name`); a key that no field is named by is an error (`apply_unknown`).
-/
import L4Scope.ConfigText
import L4Scope.Overlay

/-! ## Types of values -/

/-- The types a field can have. -/
inductive FieldType where
  | backend
  | text
  | u64
  | u32
  | f64
  | bool
  deriving DecidableEq

/-- The values of a type of field. -/
@[reducible] def FieldType.Value (F : Type) : FieldType → Type
  | backend => Backend
  | text => String
  | u64 => ℕ
  | u32 => UInt32
  | f64 => F
  | bool => Bool

section Read

variable {F : Type}

/-- How a value is read for a field of the type: of the bare text or of what its quotes hold. -/
def FieldType.read (parseF64 : List Char → Option F) :
    (t : FieldType) → List Char → Except String (t.Value F)
  | backend, val => Backend.parse (unquote val)
  | text, val => .ok (unquote val)
  | u64, val => parseU64 val
  | u32, val => parseU32 val
  | f64, val => parseNumber parseF64 val
  | bool, val => parseBool (unquote val)

/-- The value is one that the source's type can hold. -/
def FieldType.Fits : (t : FieldType) → t.Value F → Prop
  | u64, n => n < 2 ^ 64
  | backend, _ | text, _ | u32, _ | f64, _ | bool, _ => True

/-- A number that is read fits its type. -/
theorem FieldType.read_fits {parseF64 : List Char → Option F} {t : FieldType} {val : List Char}
    {x : t.Value F} (h : t.read parseF64 val = .ok x) : t.Fits x := by
  cases t with
  | u64 => exact parseU64_lt h
  | backend => trivial
  | text => trivial
  | u32 => trivial
  | f64 => trivial
  | bool => trivial

end Read

/-! ## Fields -/

/-- The fields of the configuration, section by section. -/
inductive ConfigField where
  | backend
  | interface
  | filter
  | pcapPath
  | liveCommand
  | flowTtlSecs
  | retransmitRatioWarn
  | dupAckThreshold
  | rstStormPerSec
  | synBacklogThreshold
  | rttWarnMs
  | handshakeTimeoutSecs
  | churnPerSec
  | alertDebounceSecs
  | prometheusAddr
  | jsonEvents
  | enabled
  | endpoint
  | path
  | intervalSecs
  | headers
  | resourceAttributes
  | serviceName
  | podCidrs
  | podAttribution
  deriving DecidableEq

namespace ConfigField

/-- The section and the key a field is assigned under. -/
def name : ConfigField → String × String
  | backend => ("capture", "backend")
  | interface => ("capture", "interface")
  | filter => ("capture", "filter")
  | pcapPath => ("capture", "pcap_path")
  | liveCommand => ("capture", "live_command")
  | flowTtlSecs => ("detect", "flow_ttl_secs")
  | retransmitRatioWarn => ("detect", "retransmit_ratio_warn")
  | dupAckThreshold => ("detect", "dup_ack_threshold")
  | rstStormPerSec => ("detect", "rst_storm_per_sec")
  | synBacklogThreshold => ("detect", "syn_backlog_threshold")
  | rttWarnMs => ("detect", "rtt_warn_ms")
  | handshakeTimeoutSecs => ("detect", "handshake_timeout_secs")
  | churnPerSec => ("detect", "churn_per_sec")
  | alertDebounceSecs => ("detect", "alert_debounce_secs")
  | prometheusAddr => ("export", "prometheus_addr")
  | jsonEvents => ("export", "json_events")
  | enabled => ("otlp", "enabled")
  | endpoint => ("otlp", "endpoint")
  | path => ("otlp", "path")
  | intervalSecs => ("otlp", "interval_secs")
  | headers => ("otlp", "headers")
  | resourceAttributes => ("otlp", "resource_attributes")
  | serviceName => ("otlp", "service_name")
  | podCidrs => ("otlp", "pod_cidrs")
  | podAttribution => ("otlp", "pod_attribution")

/-- The type of the field. -/
def type : ConfigField → FieldType
  | backend => .backend
  | interface | filter | pcapPath | liveCommand => .text
  | flowTtlSecs | handshakeTimeoutSecs | alertDebounceSecs | intervalSecs => .u64
  | dupAckThreshold | synBacklogThreshold => .u32
  | retransmitRatioWarn | rstStormPerSec | rttWarnMs | churnPerSec => .f64
  | prometheusAddr | jsonEvents => .text
  | enabled | podAttribution => .bool
  | endpoint | path | headers | resourceAttributes | serviceName | podCidrs => .text

/-- The values a field can hold. -/
abbrev Value (F : Type) (f : ConfigField) : Type := f.type.Value F

variable {F : Type}

/-- The field of a configuration. -/
def get : (f : ConfigField) → Config F → f.Value F
  | backend, cfg => cfg.capture.backend
  | interface, cfg => cfg.capture.interface
  | filter, cfg => cfg.capture.filter
  | pcapPath, cfg => cfg.capture.pcapPath
  | liveCommand, cfg => cfg.capture.liveCommand
  | flowTtlSecs, cfg => cfg.detect.flowTtlSecs
  | retransmitRatioWarn, cfg => cfg.detect.retransmitRatioWarn
  | dupAckThreshold, cfg => cfg.detect.dupAckThreshold
  | rstStormPerSec, cfg => cfg.detect.rstStormPerSec
  | synBacklogThreshold, cfg => cfg.detect.synBacklogThreshold
  | rttWarnMs, cfg => cfg.detect.rttWarnMs
  | handshakeTimeoutSecs, cfg => cfg.detect.handshakeTimeoutSecs
  | churnPerSec, cfg => cfg.detect.churnPerSec
  | alertDebounceSecs, cfg => cfg.detect.alertDebounceSecs
  | prometheusAddr, cfg => cfg.exports.prometheusAddr
  | jsonEvents, cfg => cfg.exports.jsonEvents
  | enabled, cfg => cfg.otlp.enabled
  | endpoint, cfg => cfg.otlp.endpoint
  | path, cfg => cfg.otlp.path
  | intervalSecs, cfg => cfg.otlp.intervalSecs
  | headers, cfg => cfg.otlp.headers
  | resourceAttributes, cfg => cfg.otlp.resourceAttributes
  | serviceName, cfg => cfg.otlp.serviceName
  | podCidrs, cfg => cfg.otlp.podCidrs
  | podAttribution, cfg => cfg.otlp.podAttribution

/-- A configuration with another value in the field. -/
def set : (f : ConfigField) → f.Value F → Config F → Config F
  | backend, x, cfg => { cfg with capture.backend := x }
  | interface, x, cfg => { cfg with capture.interface := x }
  | filter, x, cfg => { cfg with capture.filter := x }
  | pcapPath, x, cfg => { cfg with capture.pcapPath := x }
  | liveCommand, x, cfg => { cfg with capture.liveCommand := x }
  | flowTtlSecs, x, cfg => { cfg with detect.flowTtlSecs := x }
  | retransmitRatioWarn, x, cfg => { cfg with detect.retransmitRatioWarn := x }
  | dupAckThreshold, x, cfg => { cfg with detect.dupAckThreshold := x }
  | rstStormPerSec, x, cfg => { cfg with detect.rstStormPerSec := x }
  | synBacklogThreshold, x, cfg => { cfg with detect.synBacklogThreshold := x }
  | rttWarnMs, x, cfg => { cfg with detect.rttWarnMs := x }
  | handshakeTimeoutSecs, x, cfg => { cfg with detect.handshakeTimeoutSecs := x }
  | churnPerSec, x, cfg => { cfg with detect.churnPerSec := x }
  | alertDebounceSecs, x, cfg => { cfg with detect.alertDebounceSecs := x }
  | prometheusAddr, x, cfg => { cfg with exports.prometheusAddr := x }
  | jsonEvents, x, cfg => { cfg with exports.jsonEvents := x }
  | enabled, x, cfg => { cfg with otlp.enabled := x }
  | endpoint, x, cfg => { cfg with otlp.endpoint := x }
  | path, x, cfg => { cfg with otlp.path := x }
  | intervalSecs, x, cfg => { cfg with otlp.intervalSecs := x }
  | headers, x, cfg => { cfg with otlp.headers := x }
  | resourceAttributes, x, cfg => { cfg with otlp.resourceAttributes := x }
  | serviceName, x, cfg => { cfg with otlp.serviceName := x }
  | podCidrs, x, cfg => { cfg with otlp.podCidrs := x }
  | podAttribution, x, cfg => { cfg with otlp.podAttribution := x }

/-- The field that was set. -/
theorem get_set (f : ConfigField) (x : f.Value F) (cfg : Config F) : f.get (f.set x cfg) = x := by
  cases f <;> rfl

/-- Any other field. -/
theorem get_set_ne (f g : ConfigField) (x : f.Value F) (cfg : Config F) (h : g ≠ f) :
    g.get (f.set x cfg) = g.get cfg := by
  cases f <;> cases g <;> first | rfl | exact absurd rfl h

/-- A configuration is its fields. -/
theorem ext {cfg cfg' : Config F} (h : ∀ f : ConfigField, f.get cfg = f.get cfg') :
    cfg = cfg' := by
  -- section by section, in the order of the records
  obtain ⟨⟨_, _, _, _, _⟩, ⟨_, _, _, _, _, _, _, _, _⟩, ⟨_, _⟩, ⟨_, _, _, _, _, _, _, _, _⟩⟩ := cfg
  obtain ⟨⟨_, _, _, _, _⟩, ⟨_, _, _, _, _, _, _, _, _⟩, ⟨_, _⟩, ⟨_, _, _, _, _, _, _, _, _⟩⟩ := cfg'
  cases h .backend
  cases h .interface
  cases h .filter
  cases h .pcapPath
  cases h .liveCommand
  cases h .flowTtlSecs
  cases h .retransmitRatioWarn
  cases h .dupAckThreshold
  cases h .rstStormPerSec
  cases h .synBacklogThreshold
  cases h .rttWarnMs
  cases h .handshakeTimeoutSecs
  cases h .churnPerSec
  cases h .alertDebounceSecs
  cases h .prometheusAddr
  cases h .jsonEvents
  cases h .enabled
  cases h .endpoint
  cases h .path
  cases h .intervalSecs
  cases h .headers
  cases h .resourceAttributes
  cases h .serviceName
  cases h .podCidrs
  cases h .podAttribution
  rfl

/-- All of them. -/
def all : List ConfigField :=
  [backend, interface, filter, pcapPath, liveCommand, flowTtlSecs, retransmitRatioWarn,
    dupAckThreshold, rstStormPerSec, synBacklogThreshold, rttWarnMs, handshakeTimeoutSecs,
    churnPerSec, alertDebounceSecs, prometheusAddr, jsonEvents, enabled, endpoint, path,
    intervalSecs, headers, resourceAttributes, serviceName, podCidrs, podAttribution]

/-- The field of a section and a key. -/
def named (sec key : String) : Option ConfigField := all.find? fun f => f.name = (sec, key)

/-- A field is found by its name. -/
theorem named_name (f : ConfigField) : named f.name.1 f.name.2 = some f := by
  cases f <;> decide

/-- Names stand for one field each. -/
theorem named_eq_some_iff {sec key : String} {f : ConfigField} :
    named sec key = some f ↔ f.name = (sec, key) := by
  constructor
  · intro h
    have hfound := List.find?_some h
    exact of_decide_eq_true hfound
  · intro h
    have hname := named_name f
    rwa [h] at hname

/-! ## Assigning -/

variable (parseF64 : List Char → Option F) (cfg : Config F)

/-- A named value is read and set. -/
theorem apply_name (f : ConfigField) (val : List Char) :
    apply parseF64 cfg f.name.1 f.name.2 val = (f.type.read parseF64 val).map (f.set · cfg) := by
  cases f <;> rfl

/-- A key that names no field is reported with its section. -/
theorem apply_unknown {sec key : String} (h : named sec key = none) (val : List Char) :
    apply parseF64 cfg sec key val = .error s!"unknown key '[{sec}] {key}'" := by
  unfold apply
  split
  -- every arm but the last is about a key that has a field
  all_goals first
    | rfl
    | (exfalso; revert h; decide)

end ConfigField

/-- A configuration fits if each field does. -/
theorem Config.fits_iff {F : Type} {cfg : Config F} :
    cfg.Fits ↔ ∀ f : ConfigField, f.type.Fits (f.get cfg) := by
  constructor
  · rintro ⟨httl, htimeout, hgap, hinterval⟩ f
    cases f
    case flowTtlSecs => exact httl
    case handshakeTimeoutSecs => exact htimeout
    case alertDebounceSecs => exact hgap
    case intervalSecs => exact hinterval
    all_goals trivial
  · intro h
    exact ⟨h .flowTtlSecs, h .handshakeTimeoutSecs, h .alertDebounceSecs, h .intervalSecs⟩

/-- The configuration is known by its fields. -/
def Config.fields (F : Type) : Fields ConfigField (ConfigField.Value F) (Config F) where
  get f := f.get
  set f := f.set
  get_set f x cfg := f.get_set x cfg
  get_set_ne f g x cfg h := f.get_set_ne g x cfg h
  ext _ _ h := ConfigField.ext h
