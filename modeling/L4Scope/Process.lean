/-
# The process

`main` from the command line to the exit code: the configuration, the metrics server, the event
sink, the OTLP push and the capture are set up in this order, then the agent runs to the end of the
capture.  A metrics address or an OTLP endpoint that cannot be used is only warned about, and so is
a failed last push.

With a capture file on the command line the process accounts for the packets in that file, under
the layered configuration (`l4scope_replays`).
-/
import L4Scope.Replay
import L4Scope.Startup
import L4Scope.PodCidrs

variable {F ε : Type}

/-! ## Sources -/

namespace SyntheticSource

/-- A millisecond. -/
def MS : ℕ := 1000000

/-- A second. -/
def SEC : ℕ := 1000000000

/-- An IPv4 address. -/
def v4 (a b c d : UInt8) : IpAddr := .v4 ⟨[a, b, c, d], rfl⟩

/-- A packet from an observed pair of endpoints. -/
def pkt (ts : ℕ) (srcIp : IpAddr) (sport : UInt16) (dstIp : IpAddr) (dport : UInt16)
    (proto : Protocol) (flags : UInt8) (seq ack window payloadLen : UInt32) : PacketMeta :=
  let src : Endpoint := ⟨srcIp, sport⟩
  let dst : Endpoint := ⟨dstIp, dport⟩
  let (key, dir) := FlowKey.canonical src dst proto
  { tsNanos := ts, key, dir, proto, flags := ⟨flags⟩, seq, ack, window, payloadLen, ttl := 64,
    iface := 0 }

/-- The time the script starts at. -/
def t0 : ℕ := 1700000000 * SEC

/-- The client of the script. -/
def client : IpAddr := v4 10 0 0 5

/-- Its server. -/
def server : IpAddr := v4 10 0 0 9

open TcpFlags in
/-- A slow handshake. -/
def handshake : List PacketMeta :=
  [pkt t0 client 40001 server 443 .tcp SYN 1000 0 64240 0,
    pkt (t0 + 300 * MS) server 443 client 40001 .tcp (SYN ||| ACK) 5000 1001 65160 0,
    pkt (t0 + 305 * MS) client 40001 server 443 .tcp ACK 1001 5001 64240 0]

open TcpFlags in
/-- A segment sent four times, and an acknowledgement sent four times. -/
def repeats : List PacketMeta :=
  let base := t0 + 400 * MS
  [pkt base client 40002 server 80 .tcp SYN 2000 0 64240 0,
    pkt (base + MS) server 80 client 40002 .tcp (SYN ||| ACK) 9000 2001 65160 0,
    pkt (base + 2 * MS) client 40002 server 80 .tcp ACK 2001 9001 64240 0]
    ++ ((List.range 4).map fun i =>
      pkt (base + (10 + i * 200) * MS) client 40002 server 80 .tcp (ACK ||| PSH) 2001 9001 64240 200)
    ++ (List.range 4).map fun i =>
      pkt (base + (900 + i * 5) * MS) server 80 client 40002 .tcp ACK 9001 2201 65160 0

open TcpFlags in
/-- A receiver that closes its window. -/
def stall : List PacketMeta :=
  let zt := t0 + 2 * SEC
  [pkt zt client 40003 server 5432 .tcp SYN 3000 0 64240 0,
    pkt (zt + MS) server 5432 client 40003 .tcp (SYN ||| ACK) 7000 3001 65160 0,
    pkt (zt + 2 * MS) client 40003 server 5432 .tcp ACK 3001 7001 64240 0,
    pkt (zt + 50 * MS) client 40003 server 5432 .tcp ACK 3001 7001 0 0]

open TcpFlags in
/-- A server that refuses forty clients. -/
def refusals : List PacketMeta :=
  let rt := t0 + 3 * SEC
  (List.range 40).flatMap fun i =>
    let cli := v4 10 0 1 (.ofNat (i % 250 + 1))
    let sp : UInt16 := .ofNat (50000 + i)
    [pkt (rt + i * 10 * MS) cli sp server 8080 .tcp SYN (.ofNat (4000 + i)) 0 64240 0,
      pkt (rt + i * 10 * MS + MS) server 8080 cli sp .tcp (RST ||| ACK) 0 (.ofNat (4001 + i)) 0 0]

open TcpFlags in
/-- Eighty requests without an answer, and a packet much later. -/
def backlog : List PacketMeta :=
  let st := t0 + 5 * SEC
  ((List.range 80).map fun i =>
    pkt (st + i * MS) (v4 10 0 2 (.ofNat (i % 250 + 1))) (.ofNat (60000 + i)) server 3306 .tcp SYN
      (.ofNat (6000 + i)) 0 64240 0)
    ++ [pkt (st + 10 * SEC) client 40009 server 22 .tcp SYN 7000 0 64240 0]

/-- The packets of the synthetic capture. -/
def buildScript : List PacketMeta := handshake ++ repeats ++ stall ++ refusals ++ backlog

end SyntheticSource

/-- The argv of the capture tool of the platform. -/
def defaultCommand (windows : Bool) (iface filter : String) : List String :=
  let iface := if iface = "" then "any" else iface
  if windows then
    ["tshark", "-i", iface, "-w", "-", "-F", "pcap", "-s", "256"]
      ++ if filter = "" then [] else ["-f", filter]
  else
    ["tcpdump", "-i", iface, "-w", "-", "-U", "-n", "-s", "256"]
      ++ (splitWhitespace filter.toList).map String.ofList

section Sources

variable [ToString ε] (sys : System ε)

/-- Starts the capture command and reads what it prints. -/
def openLive (cfg : CaptureConfig) : Except (Error ε) (String × Capture ε) :=
  let argv :=
    if trim cfg.liveCommand.toList = [] then defaultCommand sys.windows cfg.interface cfg.filter
    else (splitWhitespace cfg.liveCommand.toList).map String.ofList
  match argv with
  | [] => .error (.config "empty live_command")
  | tool :: _ =>
    match sys.spawn argv with
    | .error e => .error (.unsupportedBackend
        s!"failed to spawn '{tool}' (is it installed / do you have capture privileges?): {e}")
    | .ok stdout => (PcapStream.new stdout 0).map fun s => (s!"live:{tool}", .ofStream s)

/-- `l4scope_capture::open`: the name of the source and what it yields. -/
def openCapture (cfg : CaptureConfig) : Except (Error ε) (String × Capture ε) :=
  match cfg.backend with
  | .synthetic => .ok ("synthetic", ⟨SyntheticSource.buildScript, none⟩)
  | .pcapFile =>
    if trim cfg.pcapPath.toList = [] then
      .error (.config "pcap_file backend needs capture.pcap_path")
    else
      match sys.openFile cfg.pcapPath with
      | .error e => .error (.config s!"cannot open {cfg.pcapPath}: {e}")
      | .ok file => (PcapStream.new file 0).map fun s => (s!"pcap_file:{cfg.pcapPath}", .ofStream s)
  | .live => openLive sys cfg
  | .ebpf =>
    match sys.ebpf with
    | some source => source cfg
    | none => .error (.unsupportedBackend ("ebpf backend not built in; rebuild on Linux with "
        ++ "`--features l4scope-agent/ebpf` (see docs/BUILD_NATIVE.md)"))
  | .etw =>
    match sys.etw with
    | some source => source cfg
    | none => .error (.unsupportedBackend ("etw backend not built in; rebuild on Windows with "
        ++ "`--features l4scope-agent/etw` (see docs/BUILD_NATIVE.md)"))

/-! ## Sinks -/

/-- `JsonSink::from_target`. -/
def JsonSink.fromTarget (target : String) : Except (Error ε) JsonTarget :=
  match String.ofList (trim target.toList) with
  | "" | "off" | "none" => .ok .off
  | "stdout" => .ok .stdout
  | "stderr" => .ok .stderr
  | path =>
    match sys.openAppend path with
    | .ok _ => .ok .file
    | .error e => .error (.config s!"cannot open json_events {path}: {e}")

/-- What is reported when the metrics server is started, if it is wanted. -/
def startMetrics (args : Args) (cfg : ExportConfig) : List String :=
  if args.noMetrics ∨ trim cfg.prometheusAddr.toList = [] then []
  else
    match sys.bind cfg.prometheusAddr with
    | .ok _ => [s!"l4scope: metrics on http://{cfg.prometheusAddr}/metrics"]
    | .error e => ["l4scope: warning: metrics disabled: config error: "
        ++ s!"cannot bind metrics addr {cfg.prometheusAddr}: {e}"]

/-- What is reported when the push is started. -/
def startOtlp (cfg : OtlpConfig) : List String :=
  if cfg.enabled then
    match Otlp.parseTarget cfg with
    | .ok _ => [s!"l4scope: otlp -> {cfg.endpoint}{cfg.path}"]
    | .error e => [s!"l4scope: warning: otlp disabled: {e}"]
  else []

/-- The last push, if the push was started; a failure is reported. -/
def finalFlush (cfg : OtlpConfig) : List String :=
  if cfg.enabled then
    match Otlp.parseTarget cfg with
    | .ok target =>
      match Otlp.post target sys.collector with
      | .ok _ => []
      | .error e => [s!"l4scope: otlp final flush failed: io error: {e}"]
    | .error _ => []
  else []

end Sources

/-! ## The run -/

/-- The name of a backend in a debug print. -/
def Backend.debug : Backend → String
  | pcapFile => "PcapFile"
  | synthetic => "Synthetic"
  | live => "Live"
  | ebpf => "Ebpf"
  | etw => "Etw"

/-- What a process leaves behind: its exit code, what it wrote to standard error, and the agent if
it came to capture. -/
structure Process (F : Type) where
  exit : ExitCode
  console : List String
  agent : Option (Agent F)

/-- A process that ends before it captures. -/
def Process.stopped (console : List String) : Stop → Process F
  | .help => ⟨.success, console, none⟩
  | .failed msg => ⟨.failure, console ++ [s!"l4scope: error: {msg}"], none⟩

section Run

variable [F64 F] [ToString ε] (parseF64 : List Char → Option F)
  (parseIp : List Char → Option IpAddr) (sys : System ε)

/-- The settings the loop consults. -/
def settingsOf (args : Args) (cfg : OtlpConfig) : Settings where
  podMatcher :=
    if cfg.podAttribution ∧ trim cfg.podCidrs.toList ≠ [] then
      some (.new parseIp cfg.podCidrs.toList)
    else none
  quiet := args.quiet

/-- The agent from the start of the capture to the end of the process, with what the last push
reports before the summary. -/
def Setup.flushed (s : Setup F ε) (flush : List String) : Agent F :=
  let a := ((Agent.new s.detect s.jsonTarget).captureLoop s.settings s.capture).finalSweep s.settings
  { a with console := a.console ++ flush }.report

/-- `run` behind the configuration. -/
def runConfigured (args : Args) (cfg : Config F) : Process F :=
  let metrics := if args.noMetrics then "off" else cfg.exports.prometheusAddr
  let banner := s!"l4scope: backend={cfg.capture.backend.debug} iface='{cfg.capture.interface}' "
    ++ s!"metrics='{metrics}'"
  let console := banner :: startMetrics sys args cfg.exports
  match JsonSink.fromTarget sys cfg.exports.jsonEvents with
  | .error e => .stopped console (.failed (toString e))
  | .ok jsonTarget =>
    let console := console ++ startOtlp cfg.otlp
    match openCapture sys cfg.capture with
    | .error e => .stopped console (.failed (toString e))
    | .ok (name, capture) =>
      let setup : Setup F ε :=
        { settings := settingsOf parseIp args cfg.otlp, detect := cfg.detect, jsonTarget, capture }
      let agent := setup.flushed (finalFlush sys cfg.otlp)
      let console := console ++ [s!"l4scope: capturing from '{name}' — press Ctrl-C to stop"]
      ⟨.success, console ++ agent.console, some agent⟩

/-- `main` on the words behind the name of the program. -/
def l4scope (argv : List String) : Process F :=
  match parseArgs argv with
  | .error stop => .stopped [] stop
  | .ok args =>
    match configure parseF64 sys args with
    | .error e => .stopped [] (.failed e)
    | .ok cfg => runConfigured parseIp sys args cfg

variable {parseF64 sys}

/-- A flush leaves the account. -/
theorem Setup.accounts_flushed (s : Setup F ε) (flush : List String) :
    (s.flushed flush).Accounts s.settings s.jsonTarget s.capture.packets
      ((Engine.new s.detect).events s.capture.calls) := by
  have h := s.accounts
  exact h.congr rfl rfl rfl rfl rfl

/-! ### The console -/

namespace Agent

/-- Lines on the console stay there. -/
theorem mem_console_foldl {o : Settings} {evs : List (L4Event F)} {a : Agent F} {l : String}
    (h : l ∈ a.console) : l ∈ (evs.foldl (handleEvent o) a).console := by
  induction evs generalizing a with
  | nil => exact h
  | cons ev evs ih =>
      refine ih ?_
      rw [handleEvent]
      split_ifs
      · exact h
      · exact List.mem_append_left _ h

/-- The final sweep only adds to the console. -/
theorem mem_console_finalSweep {o : Settings} {a : Agent F} {l : String} (h : l ∈ a.console) :
    l ∈ (a.finalSweep o).console := by
  rw [finalSweep_eq]
  exact mem_console_foldl (a := { a with engine := (a.engine.sweep a.lastTs).1 }) h

end Agent

/-- The failure of a capture is on the console. -/
theorem Setup.mem_console_flushed {s : Setup F ε} {e : Error ε} (h : s.capture.failure = some e)
    (flush : List String) : s!"l4scope: capture error: {e}" ∈ (s.flushed flush).console := by
  have hloop : s!"l4scope: capture error: {e}"
      ∈ ((Agent.new s.detect s.jsonTarget).captureLoop s.settings s.capture).console := by
    rw [Agent.captureLoop, h]
    exact List.mem_append_right _ List.mem_cons_self
  have hswept := Agent.mem_console_finalSweep (o := s.settings) hloop
  exact List.mem_append_left _ (List.mem_append_left _ hswept)

/-! ### A capture file -/

/-- A capture file on the command line is the source. -/
theorem capture_of_pcap {args : Args} {cfg : Config F}
    (h : configure parseF64 sys args = .ok cfg) {path : String} (hpcap : args.pcap = some path) :
    cfg.capture.backend = .pcapFile ∧ cfg.capture.pcapPath = path := by
  obtain ⟨as, -, -, hget⟩ := (configure_layers args cfg).1 h
  refine ⟨(hget .backend).trans ?_, (hget .pcapPath).trans ?_⟩
  · show ((if args.pcap.isSome then some Backend.pcapFile else args.backend.bind Backend.named).or
      (Fields.lastValue .backend as)).getD (Config.default F).capture.backend = _
    rw [hpcap]
    rfl
  · show (args.pcap.or (Fields.lastValue .pcapPath as)).getD (Config.default F).capture.pcapPath = _
    rw [hpcap]
    rfl

/-- **A capture file from the command line to the exit.**  Whatever else the command line says,
whether or not the metrics server and the push can be started, and whatever the Collector answers:
if the configuration is accepted, the event sink opens and the file is delivered, the process
accounts for the packets in the whole records of the file under the layered configuration, and
exits with success.  If the file ends inside a record, it says so. -/
theorem l4scope_replays {argv : List String} {args : Args} (hargs : parseArgs argv = .ok args)
    {path : String} (hpcap : args.pcap = some path) (hpath : trim path.toList ≠ [])
    {cfg : Config F} (hcfg : configure parseF64 sys args = .ok cfg) {target : JsonTarget}
    (htarget : JsonSink.fromTarget sys cfg.exports.jsonEvents = .ok target)
    {linktype : UInt32} (f : Format) (ignored : Octets 16) (items : List (Item linktype))
    (last : Item linktype) {n : ℕ} (hn : n < (last.encode f).length) {file : Source ε}
    (hopen : sys.openFile path = .ok file)
    (hfile : file.Delivers (f.file ignored items ++ (last.encode f).take n)) :
    let process := l4scope parseF64 parseIp sys argv
    let pkts := f.packets 0 items
    process.exit = .success ∧
    (∃ a, process.agent = some a ∧ a.Accounts (settingsOf parseIp args cfg.otlp) target pkts
      ((Engine.new cfg.detect).events
        (pkts.map Call.process ++ [.sweep ((pkts.getLast?.map PacketMeta.tsNanos).getD 0)]))) ∧
    (n ≠ 0 → ∃ e : Error ε, s!"l4scope: capture error: {e}" ∈ process.console) := by
  intro process pkts
  obtain ⟨stream, hnew, hpackets, hend⟩ :=
    PcapStream.reads_file f ignored items last hn hfile 0
  obtain ⟨hbackend, hpcapPath⟩ := capture_of_pcap hcfg hpcap
  have hcapture : openCapture sys cfg.capture = .ok (s!"pcap_file:{path}", .ofStream stream) := by
    unfold openCapture
    rw [hbackend]
    simp only [hpcapPath, if_neg hpath, hopen, hnew]
    rfl
  let setup : Setup F ε :=
    { settings := settingsOf parseIp args cfg.otlp, detect := cfg.detect, jsonTarget := target,
      capture := .ofStream stream }
  have hprocess : process = l4scope parseF64 parseIp sys argv := rfl
  rw [l4scope, hargs] at hprocess
  simp only [hcfg, runConfigured, htarget, hcapture] at hprocess
  have haccounts := setup.accounts_flushed (finalFlush sys cfg.otlp)
  have hpkts : setup.capture.packets = pkts := hpackets
  rw [Capture.calls, Capture.lastTs, hpkts] at haccounts
  refine ⟨by rw [hprocess], ⟨setup.flushed (finalFlush sys cfg.otlp), by rw [hprocess], haccounts⟩,
    fun hcut => ?_⟩
  cases hfailure : setup.capture.failure with
  | none => exact absurd (hend.1 hfailure) hcut
  | some e =>
      refine ⟨e, ?_⟩
      rw [hprocess]
      exact List.mem_append_right _ (setup.mem_console_flushed hfailure _)

end Run

namespace Sample

/-- A machine with one capture file, which ends inside a record. -/
def replaySystem : System Unit where
  environment _ := none
  windows := false
  readToString _ := .error ()
  bind _ := .error ()
  openAppend _ := .error ()
  openFile path := if path = "x.pcap" then .ok cutFileSource else .error ()
  spawn _ := .error ()
  ebpf := none
  etw := none
  collector := .refused "unreachable"

/-- The file goes before the backend that is named. -/
def replayArgv : List String :=
  ["--pcap", "x.pcap", "--backend", "live", "--json", "off", "--quiet"]

/-- Options that replay a file and override a backend. -/
def replayArgs : Args :=
  { Args.default with
    pcap := some "x.pcap", backend := some "live", json := some "off", quiet := true }

end Sample

/-- The whole record of the file is accounted for. -/
theorem l4scope_replays_cut :
    let process := l4scope (F := ℚ) (fun _ => none) (fun _ => none) Sample.replaySystem
      Sample.replayArgv
    process.exit = .success ∧ (∃ a, process.agent = some a ∧ a.packets = 1) ∧
    ∃ e : Error Unit, s!"l4scope: capture error: {e}" ∈ process.console := by
  intro process
  have hsource : Sample.cutFileSource.Delivers Sample.cutFile :=
    ⟨by simp [Sample.cutFileSource, Source.bytes], by simp [Sample.cutFileSource]⟩
  have hargs : parseArgs Sample.replayArgv = .ok Sample.replayArgs := rfl
  have hcfg : configure (F := ℚ) (fun _ => none) Sample.replaySystem Sample.replayArgs
      = .ok (Sample.replayArgs.overrides { Config.default ℚ with capture.backend := .live }) := rfl
  have htarget : JsonSink.fromTarget Sample.replaySystem "off" = .ok .off := rfl
  obtain ⟨hexit, ⟨a, hagent, haccounts⟩, hconsole⟩ :=
    l4scope_replays (fun _ => none) hargs rfl (by decide) hcfg htarget ⟨false, true⟩
      Sample.fileVersion [Sample.synItem] Sample.synItem (n := 20) (by decide) rfl hsource
  exact ⟨hexit, ⟨a, hagent, haccounts.packets.trans rfl⟩, hconsole (by decide)⟩
