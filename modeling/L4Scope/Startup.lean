/-
# From the command line to the configuration

The configuration is built in layers: the defaults, the configuration file, and the command line.
A capture file on the command line also sets the backend, whatever other option names one; but an
unknown backend on the command line is an error even then.  So a field of the configuration is what
the command line says, or else the last line of the file that assigns it, or its default
(`configure_layers`).
-/
import L4Scope.CommandLine
import L4Scope.ConfigLines
import L4Scope.OtlpReply

variable {F ε : Type}

/-! ## The operating system -/

/-- What the operating system and the Collector answer. -/
structure System (ε : Type) where
  environment : Environment
  windows : Bool
  readToString : String → Except ε (List Char)
  bind : String → Except ε Unit
  /-- Open a file to append to it. -/
  openAppend : String → Except ε Unit
  openFile : String → Except ε (Source ε)
  /-- The standard output of a program that is run. -/
  spawn : List String → Except ε (Source ε)
  /-- The native backends, if they are built in. -/
  ebpf : Option (CaptureConfig → Except (Error ε) (String × Capture ε))
  etw : Option (CaptureConfig → Except (Error ε) (String × Capture ε))
  collector : Otlp.Exchange

/-! ## The layers -/

section Layers

variable [F64 F] [ToString ε] (parseF64 : List Char → Option F) (sys : System ε)

/-- `Config::load`. -/
def Config.load (path : String) : Except (Error ε) (Config F) :=
  match sys.readToString path with
  | .error e => .error (.config s!"cannot read {path}: {e}")
  | .ok text =>
    match fromStr parseF64 text with
    | .ok cfg => .ok cfg
    | .error e => .error (.config e)

omit [F64 F] in
/-- The configuration with the backend of this name. -/
def applyBackend (cfg : Config F) (name : String) : Except String (Config F) :=
  match name with
  | "pcap_file" | "pcap" => .ok { cfg with capture.backend := .pcapFile }
  | "synthetic" | "demo" => .ok { cfg with capture.backend := .synthetic }
  | "live" | "tcpdump" => .ok { cfg with capture.backend := .live }
  | "ebpf" => .ok { cfg with capture.backend := .ebpf }
  | "etw" => .ok { cfg with capture.backend := .etw }
  | other => .error s!"unknown backend '{other}'"

/-- The overrides behind the backend. -/
def Args.overrides (args : Args) (cfg : Config F) : Config F :=
  let cfg := match args.pcap with
    | some p => { cfg with capture.backend := .pcapFile, capture.pcapPath := p }
    | none => cfg
  let cfg := match args.iface with
    | some i => { cfg with capture.interface := i }
    | none => cfg
  let cfg := match args.liveCmd with
    | some c => { cfg with capture.liveCommand := c }
    | none => cfg
  match args.json with
  | some j => { cfg with exports.jsonEvents := j }
  | none => cfg

/-- The configuration below the command line. -/
def baseConfig (args : Args) : Except String (Config F) :=
  match args.config with
  | some path =>
    match Config.load parseF64 sys path with
    | .ok cfg => .ok cfg
    | .error e => .error (toString e)
  | none => .ok (Config.default F)

/-- Layer config: defaults, file, command line. -/
def configure (args : Args) : Except String (Config F) :=
  match baseConfig parseF64 sys args with
  | .error e => .error e
  | .ok cfg =>
    match args.backend with
    | some b => (applyBackend cfg b).map args.overrides
    | none => .ok (args.overrides cfg)

/-! ## What the layers say -/

/-- The assignments of the configuration file, if it is accepted; none without one. -/
def FileAssigns (args : Args) (as : List (Σ f : ConfigField, f.Value F)) : Prop :=
  match args.config with
  | none => as = []
  | some path => ∃ text, sys.readToString path = .ok text ∧
      AllAccepted parseF64 "" (lines text) ∧ as = assignments parseF64 "" (lines text)

/-- The backend of a name. -/
def Backend.named (name : String) : Option Backend := (Backend.parse name).toOption

/-- What the command line says on a field. -/
def Args.value? (args : Args) : (f : ConfigField) → Option (f.Value F)
  | .backend => if args.pcap.isSome then some .pcapFile else args.backend.bind Backend.named
  | .pcapPath => args.pcap
  | .interface => args.iface
  | .liveCommand => args.liveCmd
  | .jsonEvents => args.json
  | _ => none

omit [F64 F] in
/-- The name is looked up as in a file. -/
theorem applyBackend_eq (cfg : Config F) (name : String) :
    applyBackend cfg name
      = (Backend.parse name).map fun b => { cfg with capture.backend := b } := by
  unfold applyBackend
  split
  -- the last arm is the one of no name
  case h_9 =>
    rw [Backend.parse.eq_def]
    split <;> first | rfl | contradiction
  all_goals rfl

omit [F64 F] in
/-- What the options override. -/
theorem Args.overrides_eq (args : Args) (cfg : Config F) :
    args.overrides cfg =
      { cfg with
        capture.backend := if args.pcap.isSome then .pcapFile else cfg.capture.backend
        capture.pcapPath := args.pcap.getD cfg.capture.pcapPath
        capture.interface := args.iface.getD cfg.capture.interface
        capture.liveCommand := args.liveCmd.getD cfg.capture.liveCommand
        exports.jsonEvents := args.json.getD cfg.exports.jsonEvents } := by
  obtain ⟨_, _, pcap, iface, liveCmd, json, _, _⟩ := args
  cases pcap <;> cases iface <;> cases liveCmd <;> cases json <;> rfl

omit [F64 F] in
/-- The command line over a configuration whose backend it has not named. -/
theorem Args.get_overrides (args : Args) (cfg : Config F) (hnone : args.backend = none)
    (f : ConfigField) : f.get (args.overrides cfg) = (args.value? f).getD (f.get cfg) := by
  rw [overrides_eq]
  cases f
  case backend =>
    show (if args.pcap.isSome then Backend.pcapFile else cfg.capture.backend)
      = (if args.pcap.isSome then some Backend.pcapFile
          else args.backend.bind Backend.named).getD cfg.capture.backend
    rw [hnone]
    split_ifs <;> rfl
  all_goals rfl

omit [F64 F] in
/-- And over one whose backend it has. -/
theorem Args.get_overrides_named (args : Args) (cfg : Config F) {name : String} {b : Backend}
    (hname : args.backend = some name) (hb : Backend.parse name = .ok b) (f : ConfigField) :
    f.get (args.overrides { cfg with capture.backend := b })
      = (args.value? f).getD (f.get cfg) := by
  rw [overrides_eq]
  cases f
  case backend =>
    show (if args.pcap.isSome then Backend.pcapFile else b)
      = (if args.pcap.isSome then some Backend.pcapFile
          else args.backend.bind Backend.named).getD cfg.capture.backend
    rw [hname, Option.bind_some, Backend.named, hb]
    split_ifs <;> rfl
  all_goals rfl

variable {parseF64 sys}

/-- A file is read and parsed. -/
theorem load_ok_iff {path : String} {cfg : Config F} :
    Config.load parseF64 sys path = .ok cfg ↔
      ∃ text, sys.readToString path = .ok text ∧ fromStr parseF64 text = .ok cfg := by
  rw [Config.load]
  cases hread : sys.readToString path with
  | error e => simp
  | ok text => cases hparse : fromStr parseF64 text <;> simp [hparse]

/-- The configuration before the options is the file's, laid over the defaults. -/
theorem baseConfig_ok_iff {args : Args} {cfg : Config F} :
    baseConfig parseF64 sys args = .ok cfg ↔
      ∃ as, FileAssigns parseF64 sys args as ∧ cfg = (Config.fields F).overlay (.default F) as := by
  rw [baseConfig]
  unfold FileAssigns
  cases args.config with
  | none =>
      constructor
      · intro h
        exact ⟨[], rfl, (Except.ok.inj h).symm⟩
      · rintro ⟨as, rfl, rfl⟩
        rfl
  | some path =>
      have hload : (match Config.load parseF64 sys path with
          | .ok cfg => Except.ok cfg
          | .error e => .error (toString e)) = .ok cfg
            ↔ Config.load parseF64 sys path = .ok cfg := by
        cases Config.load parseF64 sys path <;> simp
      refine hload.trans (load_ok_iff.trans ?_)
      constructor
      · rintro ⟨text, hread, hparse⟩
        obtain ⟨hall, hcfg⟩ := fromStr_ok_iff.1 hparse
        exact ⟨_, ⟨text, hread, hall, rfl⟩, hcfg⟩
      · rintro ⟨as, ⟨text, hread, hall, rfl⟩, hcfg⟩
        exact ⟨text, hread, fromStr_ok_iff.2 ⟨hall, hcfg⟩⟩

/-- The base, with a backend named on the command line, and the overrides. -/
theorem configure_ok_iff {args : Args} {cfg : Config F} :
    configure parseF64 sys args = .ok cfg ↔ ∃ base, baseConfig parseF64 sys args = .ok base ∧
      (∀ name, args.backend = some name → (Backend.named name).isSome) ∧
      ∀ f : ConfigField, f.get cfg = (args.value? f).getD (f.get base) := by
  rw [configure]
  cases hbase : baseConfig parseF64 sys args with
  | error e => simp
  | ok base =>
      simp only [Except.ok.injEq, exists_eq_left']
      cases hbackend : args.backend with
      | none =>
          have hget := args.get_overrides base hbackend
          simp only [Except.ok.injEq, reduceCtorEq, false_implies, implies_true, true_and]
          constructor
          · rintro rfl
            exact hget
          · intro h
            exact ConfigField.ext fun f => (hget f).trans (h f).symm
      | some name =>
          simp only [applyBackend_eq]
          cases hb : Backend.parse name with
          | error e =>
              have hnone : Backend.named name = none := by rw [Backend.named, hb]; rfl
              simp [Except.map, hnone]
          | ok b =>
              have hsome : (Backend.named name).isSome := by rw [Backend.named, hb]; rfl
              have hget := args.get_overrides_named base hbackend hb
              constructor
              · intro h
                obtain rfl : args.overrides { base with capture.backend := b } = cfg :=
                  Except.ok.inj h
                refine ⟨?_, hget⟩
                intro name' hname
                obtain rfl := Option.some.inj hname
                exact hsome
              · rintro ⟨-, h⟩
                exact congrArg Except.ok (ConfigField.ext fun f => (hget f).trans (h f).symm)

/-- **The layers of the configuration.**  The process gets a configuration exactly if the file is
read and accepted and a backend on the command line is known.  Then each field is what the command
line says, or else the last line of the file that assigns it, or its default. -/
theorem configure_layers (args : Args) (cfg : Config F) :
    configure parseF64 sys args = .ok cfg ↔ ∃ as, FileAssigns parseF64 sys args as ∧
      (∀ name, args.backend = some name → (Backend.named name).isSome) ∧
      ∀ f : ConfigField, f.get cfg
        = ((args.value? f).or (Fields.lastValue f as)).getD (f.get (Config.default F)) := by
  have hget (as : List (Σ f : ConfigField, f.Value F)) (f : ConfigField) :
      (args.value? f).getD (f.get ((Config.fields F).overlay (.default F) as))
        = ((args.value? f).or (Fields.lastValue f as)).getD (f.get (Config.default F)) := by
    have hoverlay : f.get ((Config.fields F).overlay (.default F) as) = _ :=
      (Config.fields F).get_overlay f (.default F) as
    rw [hoverlay]
    cases args.value? (F := F) f <;> rfl
  rw [configure_ok_iff]
  constructor
  · rintro ⟨base, hbase, hknown, h⟩
    obtain ⟨as, has, rfl⟩ := baseConfig_ok_iff.1 hbase
    exact ⟨as, has, hknown, fun f => (h f).trans (hget as f)⟩
  · rintro ⟨as, has, hknown, h⟩
    exact ⟨_, baseConfig_ok_iff.2 ⟨as, has, rfl⟩, hknown, fun f => (h f).trans (hget as f).symm⟩

end Layers
