/-
# The agent

The capture loop of `main.rs`: every packet goes to the registry and the engine, every event to
the registry, the NDJSON sink, the summary and the console; at the end of the capture, clean or
not, a final sweep flushes the handshake timeouts.

The agent never reads the registry, so it is modelled by the operations it performs on it, in
order (`registryOps`).  `Agent.Accounts` says what the agent has done for the packets and events
so far, and every step of the loop keeps the account.
-/
import L4Scope.Attribution
import L4Scope.PcapStream
import L4Scope.Registry
import L4Scope.Runs

variable {F ε : Type} [F64 F]

/-! ## Engine statistics -/

/-- What the engine reports about itself. -/
structure EngineStats (F : Type) where
  activeFlows : ℕ
  halfOpenMax : ℕ
  rstPerSec : F
  newFlowPerSec : F

/-- The statistics at the time `nowNs`. -/
def Engine.stats (e : Engine F) (nowNs : ℕ) : EngineStats F where
  activeFlows := e.state.flows.size
  halfOpenMax := e.state.globals.halfOpenMax.toNat
  rstPerSec := e.state.globals.rstRate.perSec nowNs
  newFlowPerSec := e.state.globals.newFlowRate.perSec nowNs

/-- The events of a list of calls, in order. -/
def Engine.events (e : Engine F) (calls : List Call) : List (L4Event F) :=
  ((machine.log e calls).map Machine.Entry.output).flatten

/-- One more call adds its events. -/
theorem Engine.events_concat (e : Engine F) (calls : List Call) (c : Call) :
    e.events (calls ++ [c]) = e.events calls ++ (machine.step (machine.after e calls) c).2 := by
  rw [events, Machine.log_concat, List.map_append, List.flatten_append]
  simp [events]

/-! ## Capture -/

instance [ToString ε] : ToString (Error ε) where
  toString
    | .io e => s!"io error: {e}"
    | .parse m => s!"parse error: {m}"
    | .config m => s!"config error: {m}"
    | .unsupportedBackend m => s!"unsupported capture backend: {m}"

/-- What the calls of `next_packet` yield: packets, and then an error or a clean end. -/
structure Capture (ε : Type) where
  packets : List PacketMeta
  failure : Option (Error ε)

/-- A pcap stream as a capture. -/
def Capture.ofStream (s : PcapStream ε) : Capture ε := ⟨s.packets.1, s.packets.2⟩

/-! ## The loop -/

/-- The settings the loop consults. -/
structure Settings where
  podMatcher : Option PodMatcher
  quiet : Bool

/-- The pod a flow is attributed to, if attribution is on. -/
def Settings.podIp (o : Settings) (key : FlowKey) : Option String :=
  o.podMatcher.bind fun m => m.localPodIp key

/-- The agent between two packets, with everything it has written so far. -/
structure Agent (F : Type) where
  engine : Engine F
  jsonSink : JsonSink
  summary : Tally String
  packets : ℕ
  lastTs : ℕ
  /-- The operations on the shared registry. -/
  registryOps : List (RegistryOp F)
  /-- The lines on standard error. -/
  console : List String

/-- The tag of an event on the console. -/
def Severity.tag : Severity → String
  | info => "INFO"
  | warning => "WARN"
  | critical => "CRIT"

namespace Agent

/-- An agent that has seen nothing. -/
def new (cfg : DetectConfig F) (target : JsonTarget) : Agent F where
  engine := Engine.new cfg
  jsonSink := JsonSink.new target
  summary := ∅
  packets := 0
  lastTs := 0
  registryOps := []
  console := []

/-- Counts, logs and shows one event. -/
def handleEvent (o : Settings) (a : Agent F) (ev : L4Event F) : Agent F :=
  { a with
    registryOps := a.registryOps ++ [.recordEvent ev (o.podIp ev.key)]
    jsonSink := a.jsonSink.emit ev
    summary := a.summary.bump ev.kind.asStr
    console :=
      if o.quiet then a.console
      else a.console ++ [s!"[{ev.severity.tag}] {ev.kind.asStr}: {ev.detail}"] }

/-- Publishes the engine's statistics in the registry. -/
def updateGauges (a : Agent F) (nowNs : ℕ) : Agent F :=
  let s := a.engine.stats nowNs
  { a with registryOps := a.registryOps ++
      [.setGauges s.activeFlows s.halfOpenMax s.rstPerSec s.newFlowPerSec] }

/-- The body of the loop on a packet. -/
def onPacket (o : Settings) (a : Agent F) (pkt : PacketMeta) : Agent F :=
  let a := { a with
    packets := a.packets + 1
    lastTs := pkt.tsNanos
    registryOps := a.registryOps ++ [RegistryOp.recordPacket (o.podIp pkt.key)] }
  let r := a.engine.process pkt
  let a := r.2.foldl (handleEvent o) { a with engine := r.1 }
  if a.packets % 512 = 0 then a.updateGauges a.lastTs else a

/-- The loop over the capture; an error is reported and ends it like a clean end. -/
def captureLoop [ToString ε] (o : Settings) (a : Agent F) (cap : Capture ε) : Agent F :=
  let a := cap.packets.foldl (onPacket o) a
  match cap.failure with
  | some e => { a with console := a.console ++ [s!"l4scope: capture error: {e}"] }
  | none => a

/-- The final sweep, and the last gauges. -/
def finalSweep (o : Settings) (a : Agent F) : Agent F :=
  let r := a.engine.sweep a.lastTs
  let a := r.2.foldl (handleEvent o) { a with engine := r.1 }
  a.updateGauges a.lastTs

/-- The text of `{:>w}`. -/
def alignRight (w : ℕ) (s : String) : String :=
  String.ofList (List.replicate (w - s.length) ' ') ++ s

/-- The closing report. -/
def report (a : Agent F) : Agent F :=
  let summary :=
    if a.summary.entries.isEmpty then ["l4scope: no L4 anomalies detected"]
    else "l4scope: event summary:" ::
      a.summary.entries.map fun e => s!"  {alignRight 18 e.1}: {e.2}"
  { a with console := a.console ++ s!"\nl4scope: processed {a.packets} packets" :: summary }

end Agent

/-! ## The process -/

/-- What `run` has prepared when it starts to capture. -/
structure Setup (F ε : Type) where
  settings : Settings
  detect : DetectConfig F
  jsonTarget : JsonTarget
  capture : Capture ε

/-- The capture from its start to the closing report. -/
def Setup.agent [ToString ε] (s : Setup F ε) : Agent F :=
  let a := (Agent.new s.detect s.jsonTarget).captureLoop s.settings s.capture
  (a.finalSweep s.settings).report

/-- `run`; the preparations fail on a bad argument, configuration or source. -/
def run [ToString ε] (setup : Except String (Setup F ε)) : Except String (Agent F) := do
  let s ← setup
  return s.agent

/-- How the process ends. -/
inductive ExitCode where
  | success
  | failure
  deriving DecidableEq, Repr

/-- `main`: the exit code of a result of `run`. -/
def exitCode {α : Type} : Except String α → ExitCode
  | .ok _ => .success
  | .error _ => .failure

/-! ## What the agent has done so far -/

/-- The agent has counted and recorded the packets `pkts`, and reported the events `evs` to the
registry, the sink and the summary. -/
structure Agent.Accounts (o : Settings) (target : JsonTarget) (pkts : List PacketMeta)
    (evs : List (L4Event F)) (a : Agent F) : Prop where
  packets : a.packets = pkts.length
  lastTs : a.lastTs = (pkts.getLast?.map PacketMeta.tsNanos).getD 0
  recordedPackets : a.registryOps.filterMap RegistryOp.packet? = pkts.map fun p => o.podIp p.key
  recordedEvents : a.registryOps.filterMap RegistryOp.event?
    = evs.map fun ev => (ev, o.podIp ev.key)
  sinkTarget : a.jsonSink.target = target
  sinkLines : a.jsonSink.lines = if target = .off then [] else evs.map L4Event.toJson
  summary : a.summary = Tally.of (evs.map fun ev => ev.kind.asStr)
  writes : ∀ op ∈ a.registryOps, op.isWrite = true

namespace Agent

variable {o : Settings} {target : JsonTarget} {pkts : List PacketMeta} {evs : List (L4Event F)}
  {a : Agent F}

/-- Nothing is written at the start. -/
theorem accounts_new (o : Settings) (cfg : DetectConfig F) (target : JsonTarget) :
    (new cfg target).Accounts o target [] [] where
  packets := rfl
  lastTs := rfl
  recordedPackets := rfl
  recordedEvents := rfl
  sinkTarget := rfl
  sinkLines := by
    rw [List.map_nil, ite_self]
    rfl
  summary := rfl
  writes := by simp [new]

/-- An event is accounted for everywhere. -/
theorem Accounts.handleEvent (h : a.Accounts o target pkts evs) (ev : L4Event F) :
    (a.handleEvent o ev).Accounts o target pkts (evs ++ [ev]) where
  packets := h.packets
  lastTs := h.lastTs
  recordedPackets := by
    rw [Agent.handleEvent, List.filterMap_append, h.recordedPackets]
    exact List.append_nil _
  recordedEvents := by
    rw [Agent.handleEvent, List.filterMap_append, h.recordedEvents, List.map_append]
    rfl
  sinkTarget := (JsonSink.emit_target a.jsonSink ev).trans h.sinkTarget
  sinkLines := by
    have hlines : (a.handleEvent o ev).jsonSink.lines = (a.jsonSink.emit ev).lines := rfl
    rw [hlines, JsonSink.emit_lines, h.sinkTarget, h.sinkLines, List.map_append]
    split_ifs <;> rfl
  summary := by
    rw [List.map_append, List.map_singleton, Tally.of_concat, ← h.summary]
    rfl
  writes := List.forall_mem_append.2 ⟨h.writes, by simp [RegistryOp.isWrite]⟩

/-- So are the events of a call. -/
theorem Accounts.foldl_handleEvent (h : a.Accounts o target pkts evs)
    (evs' : List (L4Event F)) :
    (evs'.foldl (Agent.handleEvent o) a).Accounts o target pkts (evs ++ evs') := by
  induction evs' generalizing a evs with
  | nil => rwa [List.append_nil]
  | cons ev evs' ih =>
      have hrest := ih (h.handleEvent ev)
      rwa [List.append_assoc] at hrest

/-- What the account leaves open may change. -/
theorem Accounts.congr {a' : Agent F} (h : a.Accounts o target pkts evs)
    (hp : a'.packets = a.packets) (ht : a'.lastTs = a.lastTs)
    (hops : a'.registryOps = a.registryOps) (hsink : a'.jsonSink = a.jsonSink)
    (hsum : a'.summary = a.summary) : a'.Accounts o target pkts evs := by
  constructor
  · rw [hp, h.packets]
  · rw [ht, h.lastTs]
  · rw [hops, h.recordedPackets]
  · rw [hops, h.recordedEvents]
  · rw [hsink, h.sinkTarget]
  · rw [hsink, h.sinkLines]
  · rw [hsum, h.summary]
  · rw [hops]
    exact h.writes

/-- Gauges are no part of the accounts. -/
theorem Accounts.updateGauges (h : a.Accounts o target pkts evs) (now : ℕ) :
    (a.updateGauges now).Accounts o target pkts evs where
  packets := h.packets
  lastTs := h.lastTs
  recordedPackets := by
    rw [Agent.updateGauges, List.filterMap_append, h.recordedPackets]
    exact List.append_nil _
  recordedEvents := by
    rw [Agent.updateGauges, List.filterMap_append, h.recordedEvents]
    exact List.append_nil _
  sinkTarget := h.sinkTarget
  sinkLines := h.sinkLines
  summary := h.summary
  writes := List.forall_mem_append.2 ⟨h.writes, by simp [RegistryOp.isWrite]⟩

/-- A packet and its events are accounted for. -/
theorem Accounts.onPacket (h : a.Accounts o target pkts evs) (pkt : PacketMeta) :
    (a.onPacket o pkt).Accounts o target (pkts ++ [pkt]) (evs ++ (a.engine.process pkt).2) := by
  have hpulled : Accounts o target (pkts ++ [pkt]) evs
      { a with
        packets := a.packets + 1
        lastTs := pkt.tsNanos
        registryOps := a.registryOps ++ [.recordPacket (o.podIp pkt.key)]
        engine := (a.engine.process pkt).1 } := by
    constructor
    · rw [List.length_append, ← h.packets]
      rfl
    · rw [List.getLast?_concat]
      rfl
    · rw [List.filterMap_append, h.recordedPackets, List.map_append]
      rfl
    · rw [List.filterMap_append, h.recordedEvents]
      exact List.append_nil _
    · exact h.sinkTarget
    · exact h.sinkLines
    · exact h.summary
    · exact List.forall_mem_append.2 ⟨h.writes, by simp [RegistryOp.isWrite]⟩
  have hevents := hpulled.foldl_handleEvent (a.engine.process pkt).2
  rw [Agent.onPacket]
  dsimp only
  split_ifs
  · exact hevents.updateGauges _
  · exact hevents

/-! ## Whole runs -/

/-- Handling events leaves the engine alone. -/
theorem engine_foldl (o : Settings) (evs : List (L4Event F)) (a : Agent F) :
    (evs.foldl (Agent.handleEvent o) a).engine = a.engine := by
  induction evs generalizing a with
  | nil => rfl
  | cons ev evs ih => exact ih _

/-- A packet moves the engine as `process` does. -/
theorem engine_onPacket (o : Settings) (a : Agent F) (pkt : PacketMeta) :
    (a.onPacket o pkt).engine = (a.engine.process pkt).1 := by
  rw [onPacket]
  dsimp only
  split_ifs
  · exact engine_foldl o _ _
  · exact engine_foldl o _ _

/-- Handling events counts no packet. -/
theorem packets_foldl (o : Settings) (evs : List (L4Event F)) (a : Agent F) :
    (evs.foldl (Agent.handleEvent o) a).packets = a.packets := by
  induction evs generalizing a with
  | nil => rfl
  | cons ev evs ih => exact ih _

/-- Handling events keeps the time of the last packet. -/
theorem lastTs_foldl (o : Settings) (evs : List (L4Event F)) (a : Agent F) :
    (evs.foldl (Agent.handleEvent o) a).lastTs = a.lastTs := by
  induction evs generalizing a with
  | nil => rfl
  | cons ev evs ih => exact ih _

/-- The agent with a packet counted, recorded and processed. -/
def pulled (o : Settings) (a : Agent F) (pkt : PacketMeta) : Agent F :=
  { a with
    packets := a.packets + 1
    lastTs := pkt.tsNanos
    registryOps := a.registryOps ++ [RegistryOp.recordPacket (o.podIp pkt.key)]
    engine := (a.engine.process pkt).1 }

/-- The loop body: a packet, its events, and the gauges after every 512th packet. -/
theorem onPacket_eq (o : Settings) (a : Agent F) (pkt : PacketMeta) :
    a.onPacket o pkt
      = let done := (a.engine.process pkt).2.foldl (handleEvent o) (a.pulled o pkt)
        if (a.packets + 1) % 512 = 0 then done.updateGauges pkt.tsNanos else done := by
  have hpackets := packets_foldl o (a.engine.process pkt).2 (a.pulled o pkt)
  have hlast := lastTs_foldl o (a.engine.process pkt).2 (a.pulled o pkt)
  rw [pulled] at hpackets hlast
  rw [onPacket]
  dsimp only [pulled]
  rw [hpackets, hlast]

/-- The final sweep and the last gauges, at the time of the last packet. -/
theorem finalSweep_eq (o : Settings) (a : Agent F) :
    a.finalSweep o
      = ((a.engine.sweep a.lastTs).2.foldl (handleEvent o)
          { a with engine := (a.engine.sweep a.lastTs).1 }).updateGauges a.lastTs := by
  rw [finalSweep, lastTs_foldl]

/-- The account of the loop over the packets. -/
theorem accounts_foldl (o : Settings) (cfg : DetectConfig F) (target : JsonTarget)
    (pkts : List PacketMeta) :
    (pkts.foldl (onPacket o) (new cfg target)).engine
        = Engine.machine.after (Engine.new cfg) (pkts.map Call.process) ∧
      (pkts.foldl (onPacket o) (new cfg target)).Accounts o target pkts
        ((Engine.new cfg).events (pkts.map Call.process)) := by
  induction pkts using List.reverseRecOn with
  | nil => exact ⟨rfl, accounts_new o cfg target⟩
  | append_singleton pkts pkt ih =>
      obtain ⟨hengine, haccounts⟩ := ih
      rw [List.foldl_append, List.map_append, List.map_singleton, Machine.after_concat,
        Engine.events_concat, ← hengine]
      exact ⟨engine_onPacket o _ pkt, haccounts.onPacket pkt⟩

/-- The events of the final sweep are accounted for. -/
theorem Accounts.finalSweep (h : a.Accounts o target pkts evs) :
    (a.finalSweep o).Accounts o target pkts (evs ++ (a.engine.sweep a.lastTs).2) := by
  have hswept : Accounts o target pkts evs { a with engine := (a.engine.sweep a.lastTs).1 } :=
    h.congr rfl rfl rfl rfl rfl
  exact (hswept.foldl_handleEvent _).updateGauges _

end Agent

/-- The time of the last packet, at which the final sweep is made. -/
def Capture.lastTs (cap : Capture ε) : ℕ := (cap.packets.getLast?.map PacketMeta.tsNanos).getD 0

/-- The calls the agent makes on the engine. -/
def Capture.calls (cap : Capture ε) : List Call :=
  cap.packets.map Call.process ++ [.sweep cap.lastTs]

/-- **The account of a run**, however the capture ended. -/
theorem Setup.accounts [ToString ε] (s : Setup F ε) :
    s.agent.Accounts s.settings s.jsonTarget s.capture.packets
      ((Engine.new s.detect).events s.capture.calls) := by
  obtain ⟨hengine, haccounts⟩ :=
    Agent.accounts_foldl s.settings s.detect s.jsonTarget s.capture.packets
  have hloop : ((Agent.new s.detect s.jsonTarget).captureLoop s.settings s.capture).engine
        = Engine.machine.after (Engine.new s.detect) (s.capture.packets.map Call.process) ∧
      ((Agent.new s.detect s.jsonTarget).captureLoop s.settings s.capture).Accounts s.settings
        s.jsonTarget s.capture.packets
        ((Engine.new s.detect).events (s.capture.packets.map Call.process)) := by
    rw [Agent.captureLoop]
    cases s.capture.failure with
    | none => exact ⟨hengine, haccounts⟩
    | some e => exact ⟨hengine, haccounts.congr rfl rfl rfl rfl rfl⟩
  obtain ⟨hengine, haccounts⟩ := hloop
  have hswept := haccounts.finalSweep
  rw [haccounts.lastTs, hengine] at hswept
  rw [Capture.calls, Engine.events_concat]
  exact hswept.congr rfl rfl rfl rfl rfl
