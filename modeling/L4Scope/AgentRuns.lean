/-
# The agent over hash tables

The agent passes on the events of the engine in the order in which they come, and the engine finds
the timeouts of a sweep in the order of a hash table.  `Agent.HashLoop` is the loop over a capture
with the tables in any arrangement, `Setup.HashRun` the whole run.

`Engine.Matching` relates engines that report, on packets that translate into one another, events
that translate into one another up to order.  The agents around them then show the same up to that
order (`Engine.Matching.hashLoop`, `Engine.Matching.hashRun`): after every packet, and at the end.
-/
import L4Scope.Arrangement
import L4Scope.Gauges

variable {F ε : Type}

/-! ## The loop in any arrangement -/

/-- The line on the console for an event. -/
def L4Event.consoleLine (ev : L4Event F) : String :=
  s!"[{ev.severity.tag}] {ev.kind.asStr}: {ev.detail}"

variable [F64 F]

namespace Agent

/-- The packet is counted and recorded, and the engine has become `e`. -/
def counted (o : Settings) (a : Agent F) (pkt : PacketMeta) (e : Engine F) : Agent F :=
  { a with
    packets := a.packets + 1
    lastTs := pkt.tsNanos
    registryOps := a.registryOps ++ [RegistryOp.recordPacket (o.podIp pkt.key)]
    engine := e }

/-- The body of the loop on a packet, given what the engine makes of it. -/
def received (o : Settings) (a : Agent F) (pkt : PacketMeta) (evs : List (L4Event F))
    (e : Engine F) : Agent F :=
  let a := evs.foldl (handleEvent o) (a.counted o pkt e)
  if a.packets % 512 = 0 then a.updateGauges a.lastTs else a

/-- The packet is counted and recorded, its events are passed on, and every 512th packet refreshes
the gauges. -/
theorem received_eq (o : Settings) (a : Agent F) (pkt : PacketMeta) (evs : List (L4Event F))
    (e : Engine F) : a.received o pkt evs e
      = let done := evs.foldl (handleEvent o) (a.counted o pkt e)
        if (a.packets + 1) % 512 = 0 then done.updateGauges pkt.tsNanos else done := by
  rw [received]
  dsimp only
  rw [packets_foldl, lastTs_foldl]
  rfl

/-- The engine behind a packet is the one that has processed it. -/
theorem engine_received (o : Settings) (a : Agent F) (pkt : PacketMeta) (evs : List (L4Event F))
    (e : Engine F) : (a.received o pkt evs e).engine = e := by
  rw [received_eq]
  dsimp only
  split_ifs <;> exact engine_foldl o evs _

/-- The time of the last packet is kept. -/
theorem lastTs_received (o : Settings) (a : Agent F) (pkt : PacketMeta) (evs : List (L4Event F))
    (e : Engine F) : (a.received o pkt evs e).lastTs = pkt.tsNanos := by
  rw [received_eq]
  dsimp only
  split_ifs <;> exact lastTs_foldl o evs _

/-- The model's own loop body. -/
theorem onPacket_eq_received (o : Settings) (a : Agent F) (pkt : PacketMeta) :
    a.onPacket o pkt = a.received o pkt (a.engine.process pkt).2 (a.engine.process pkt).1 := rfl

/-- The loop over some packets, the tables rearranged at every call; the list holds the agent after
each packet. -/
inductive HashLoop (o : Settings) : Agent F → List PacketMeta → List (Agent F) → Prop
  | nil (a : Agent F) : HashLoop o a [] []
  | cons {a : Agent F} {pkt : PacketMeta} {pkts : List PacketMeta} {evs : List (L4Event F)}
      {e : Engine F} {as : List (Agent F)} : a.engine.Processes pkt evs e →
      HashLoop o (a.received o pkt evs e) pkts as →
      HashLoop o a (pkt :: pkts) (a.received o pkt evs e :: as)

/-- The loop of the model is one of these. -/
theorem hashLoop_foldl (o : Settings) (a : Agent F) (pkts : List PacketMeta) :
    ∃ as, HashLoop o a pkts as ∧ as.getLastD a = pkts.foldl (onPacket o) a := by
  induction pkts generalizing a with
  | nil => exact ⟨[], HashLoop.nil a, rfl⟩
  | cons pkt pkts ih =>
      obtain ⟨as, hloop, hlast⟩ := ih (a.onPacket o pkt)
      refine ⟨_, HashLoop.cons (a.engine.processes_process pkt) hloop, ?_⟩
      rw [List.foldl_cons, ← hlast, List.getLastD_cons]
      rfl

/-- The beginning of a loop is the loop over the first packets. -/
theorem HashLoop.take {o : Settings} {a : Agent F} {pkts : List PacketMeta} {as : List (Agent F)}
    (h : HashLoop o a pkts as) (n : ℕ) : HashLoop o a (pkts.take n) (as.take n) := by
  induction h generalizing n with
  | nil a =>
      rw [List.take_nil, List.take_nil]
      exact HashLoop.nil a
  | cons hp hloop ih =>
      cases n with
      | zero => exact HashLoop.nil _
      | succ n => exact HashLoop.cons hp (ih n)

/-- The time of the last packet of a loop. -/
theorem HashLoop.lastTs {o : Settings} {a : Agent F} {pkts : List PacketMeta} {as : List (Agent F)}
    (h : HashLoop o a pkts as) :
    (as.getLastD a).lastTs = (pkts.getLast?.map PacketMeta.tsNanos).getD a.lastTs := by
  induction h with
  | nil a => rfl
  | @cons a pkt pkts evs e as _ _ ih =>
      rw [List.getLastD_cons, ih, lastTs_received, List.getLast?_cons]
      cases pkts.getLast? <;> rfl

/-- A failed capture is reported. -/
def failed [ToString ε] (a : Agent F) : Option (Error ε) → Agent F
  | some e => { a with console := a.console ++ [s!"l4scope: capture error: {e}"] }
  | none => a

omit [F64 F] in
@[simp] theorem lastTs_failed [ToString ε] (a : Agent F) (failure : Option (Error ε)) :
    (a.failed failure).lastTs = a.lastTs := by
  cases failure <;> rfl

omit [F64 F] in
@[simp] theorem engine_failed [ToString ε] (a : Agent F) (failure : Option (Error ε)) :
    (a.failed failure).engine = a.engine := by
  cases failure <;> rfl

/-- The end of the run behind the final sweep, given what the engine makes of it. -/
def swept (o : Settings) (a : Agent F) (evs : List (L4Event F)) (e : Engine F) : Agent F :=
  (evs.foldl (handleEvent o) { a with engine := e }).updateGauges a.lastTs

end Agent

/-- A run from the start of the capture to the closing report, the tables rearranged at every call:
the agent after each packet, and at the end. -/
inductive Setup.HashRun [ToString ε] (s : Setup F ε) : List (Agent F) → Agent F → Prop
  | mk {as : List (Agent F)} {a : Agent F} {evs : List (L4Event F)} {e : Engine F}
      (hloop : Agent.HashLoop s.settings (.new s.detect s.jsonTarget) s.capture.packets as)
      (ha : a = (as.getLastD (.new s.detect s.jsonTarget)).failed s.capture.failure)
      (hsweep : a.engine.Sweeps a.lastTs evs e) :
      HashRun s as (a.swept s.settings evs e).report

/-- The run of the model is one of these. -/
theorem Setup.hashRun_agent [ToString ε] (s : Setup F ε) : ∃ as, s.HashRun as s.agent := by
  obtain ⟨as, hloop, hlast⟩ :=
    Agent.hashLoop_foldl s.settings (.new s.detect s.jsonTarget) s.capture.packets
  have hfailed : (Agent.new s.detect s.jsonTarget).captureLoop s.settings s.capture
      = (as.getLastD (.new s.detect s.jsonTarget)).failed s.capture.failure := by
    rw [hlast, Agent.captureLoop]
    cases s.capture.failure <;> rfl
  refine ⟨as, ?_⟩
  rw [Setup.agent, hfailed, Agent.finalSweep_eq]
  exact HashRun.mk hloop rfl (Engine.sweeps_sweep _ _)

/-! ## What the agent shows -/

namespace Agent

/-- The registry as the operations of the agent leave it. -/
def metrics (a : Agent F) : Metrics F := Registry.machine.after (Metrics.new F) a.registryOps

/-- The events the agent has passed on. -/
def events (a : Agent F) : List (L4Event F) :=
  (a.registryOps.filterMap RegistryOp.event?).map fun r => r.1

/-- The lines of the closing report. -/
def closing (a : Agent F) : List String :=
  s!"\nl4scope: processed {a.packets} packets" ::
    if a.summary.entries.isEmpty then ["l4scope: no L4 anomalies detected"]
    else "l4scope: event summary:" ::
      a.summary.entries.map fun e => s!"  {alignRight 18 e.1}: {e.2}"

omit [F64 F] in
/-- The report only adds to the console. -/
theorem report_eq (a : Agent F) : a.report = { a with console := a.console ++ a.closing } := rfl

/-- The lines the sink of the agent writes for some events. -/
def jsonLines (a : Agent F) (evs : List (L4Event F)) : List String :=
  if a.jsonSink.target = .off then [] else evs.map L4Event.toJson

/-- What the events of one call do to the agent. -/
theorem foldl_handleEvent_eq (o : Settings) (evs : List (L4Event F)) (a : Agent F) :
    evs.foldl (handleEvent o) a =
      { a with
        registryOps := a.registryOps ++ evs.map fun ev => .recordEvent ev (o.podIp ev.key)
        jsonSink := { a.jsonSink with lines := a.jsonSink.lines ++ a.jsonLines evs }
        summary := evs.foldl (fun t ev => t.bump ev.kind.asStr) a.summary
        console := a.console ++ if o.quiet then [] else evs.map L4Event.consoleLine } := by
  induction evs generalizing a with
  | nil => simp [jsonLines]
  | cons ev evs ih =>
      rw [List.foldl_cons, ih]
      have hsink : (a.handleEvent o ev).jsonSink = ⟨a.jsonSink.target,
          if a.jsonSink.target = .off then a.jsonSink.lines
          else a.jsonSink.lines ++ [ev.toJson]⟩ := by
        rw [← JsonSink.emit_lines, ← JsonSink.emit_target a.jsonSink ev]
        rfl
      simp only [jsonLines, hsink]
      simp only [handleEvent, List.map_cons, List.append_assoc, List.singleton_append,
        List.foldl_cons, L4Event.consoleLine]
      split_ifs <;> simp

/-- The events of a call are recorded in the registry. -/
theorem metrics_foldl (o : Settings) (evs : List (L4Event F)) (a : Agent F) :
    (evs.foldl (handleEvent o) a).metrics
      = evs.foldl (fun m ev => m.recordEvent ev (o.podIp ev.key)) a.metrics := by
  rw [metrics, foldl_handleEvent_eq, Machine.after_append, ← metrics]
  generalize a.metrics = m
  induction evs generalizing m with
  | nil => rfl
  | cons ev evs ih => exact ih _

/-- The events of a call are passed on. -/
theorem events_foldl (o : Settings) (evs : List (L4Event F)) (a : Agent F) :
    (evs.foldl (handleEvent o) a).events = a.events ++ evs := by
  have hrecorded : (evs.map fun ev => RegistryOp.recordEvent ev (o.podIp ev.key)).filterMap
      RegistryOp.event? = evs.map fun ev => (ev, o.podIp ev.key) := by
    rw [List.filterMap_map, ← List.filterMap_eq_map]
    rfl
  have hfst : (evs.map fun ev => (ev, o.podIp ev.key)).map (fun r => r.1) = evs := by
    rw [List.map_map]
    exact List.map_id evs
  rw [events, foldl_handleEvent_eq, List.filterMap_append, hrecorded, List.map_append, hfst, events]

end Agent

/-! ## Agents that show the same -/

/-- The last of pairwise related elements. -/
theorem forall₂_getLastD {α β : Type} {r : α → β → Prop} {l : List α} {l' : List β}
    (h : List.Forall₂ r l l') {a : α} {b : β} (hab : r a b) : r (l.getLastD a) (l'.getLastD b) := by
  induction h generalizing a b with
  | nil => exact hab
  | cons hxy _ ih =>
      rw [List.getLastD_cons, List.getLastD_cons]
      exact ih hxy

/-- The events of a run under another view of them: what the console and the registry look at stays
as it is. -/
structure L4Event.Keeps (g : L4Event F → L4Event F) : Prop where
  consoleLine : ∀ ev, (g ev).consoleLine = ev.consoleLine
  kind : ∀ ev, (g ev).kind = ev.kind
  severity : ∀ ev, (g ev).severity = ev.severity
  key : ∀ ev, (g ev).key = ev.key

/-- The second agent has counted as many packets, has the same summary and registry, and has said
the same on the console up to order; its events, and its event lines, are those of the first under
`g`, up to order. -/
structure Agent.SameReport (g : L4Event F → L4Event F) (a a' : Agent F) : Prop where
  packets : a'.packets = a.packets
  summary : a'.summary = a.summary
  metrics : a'.metrics = a.metrics
  console : a'.console.Perm a.console
  events : a'.events.Perm (a.events.map g)
  target : a'.jsonSink.target = a.jsonSink.target
  lines : a'.jsonSink.lines.Perm (a.jsonLines (a.events.map g))

namespace Agent.SameReport

variable {g : L4Event F → L4Event F} {a a' : Agent F} {o : Settings}

/-- Two agents that have not said anything. -/
theorem new (cfg cfg' : DetectConfig F) (target : JsonTarget) :
    (Agent.new cfg target).SameReport g (.new cfg' target) := by
  refine ⟨rfl, rfl, rfl, List.Perm.refl _, List.Perm.refl _, rfl, List.Perm.of_eq ?_⟩
  show [] = if target = .off then [] else []
  rw [ite_self]

/-- The events of a call are passed on by both agents, each in its order. -/
theorem handleEvents (h : a.SameReport g a') (hg : L4Event.Keeps g) {evs evs' : List (L4Event F)}
    (hevs : evs'.Perm (evs.map g)) :
    (evs.foldl (handleEvent o) a).SameReport g (evs'.foldl (handleEvent o) a') where
  packets := by rw [packets_foldl, packets_foldl, h.packets]
  summary := by
    rw [foldl_handleEvent_eq, foldl_handleEvent_eq]
    dsimp only
    have hcomm : ∀ x ∈ evs', ∀ y ∈ evs', ∀ t : Tally String,
        (t.bump x.kind.asStr).bump y.kind.asStr = (t.bump y.kind.asStr).bump x.kind.asStr :=
      fun x _ y _ t => t.bump_comm _ _
    rw [h.summary, hevs.foldl_eq' hcomm, List.foldl_map]
    simp only [hg.kind]
  metrics := by
    rw [metrics_foldl, metrics_foldl, h.metrics,
      hevs.foldl_eq' fun x _ y _ m => m.recordEvent_comm _ _ _ _, List.foldl_map]
    simp only [Metrics.recordEvent, eventKey, hg.kind, hg.severity, hg.key]
  console := by
    rw [foldl_handleEvent_eq, foldl_handleEvent_eq]
    refine h.console.append ?_
    split_ifs
    · exact List.Perm.refl _
    · have hlines := hevs.map L4Event.consoleLine
      rw [List.map_map] at hlines
      refine hlines.trans (List.Perm.of_eq ?_)
      exact List.map_congr_left fun ev _ => hg.consoleLine ev
  events := by
    rw [events_foldl, events_foldl, List.map_append]
    exact h.events.append hevs
  target := by
    rw [foldl_handleEvent_eq, foldl_handleEvent_eq]
    exact h.target
  lines := by
    have hlines := h.lines
    rw [events_foldl, foldl_handleEvent_eq, foldl_handleEvent_eq]
    simp only [jsonLines, h.target, List.map_append] at hlines ⊢
    split_ifs at hlines ⊢
    · simpa using hlines
    · exact hlines.append (hevs.map L4Event.toJson)

/-- Another engine, and more lines that both say. -/
theorem congr (h : a.SameReport g a') (e e' : Engine F) (lines : List String) :
    ({ a with engine := e, console := a.console ++ lines } : Agent F).SameReport g
      { a' with engine := e', console := a'.console ++ lines } :=
  ⟨h.packets, h.summary, h.metrics, h.console.append_right lines, h.events, h.target, h.lines⟩

/-- A failed capture is reported by both. -/
theorem failed [ToString ε] (h : a.SameReport g a') (failure : Option (Error ε)) :
    (a.failed failure).SameReport g (a'.failed failure) := by
  cases failure with
  | none => exact h
  | some e => exact h.congr a.engine a'.engine _

/-- The closing report is the same. -/
theorem report (h : a.SameReport g a') : a.report.SameReport g a'.report := by
  have hclosing : a'.closing = a.closing := by
    rw [closing, closing, h.summary, h.packets]
  rw [report_eq, report_eq, hclosing]
  exact h.congr a.engine a'.engine a.closing

/-- Operations on the registry that record no event. -/
theorem record (h : a.SameReport g a') {ops : List (RegistryOp F)}
    (hops : ops.filterMap RegistryOp.event? = []) :
    ({ a with registryOps := a.registryOps ++ ops } : Agent F).SameReport g
      { a' with registryOps := a'.registryOps ++ ops } := by
  have hevents (b : Agent F) :
      ({ b with registryOps := b.registryOps ++ ops } : Agent F).events = b.events := by
    rw [Agent.events, List.filterMap_append, hops, List.append_nil, Agent.events]
  constructor
  · exact h.packets
  · exact h.summary
  · have hmetrics := h.metrics
    rw [Agent.metrics, Agent.metrics] at hmetrics
    rw [Agent.metrics, Agent.metrics, Machine.after_append, Machine.after_append, hmetrics]
  · exact h.console
  · rw [hevents, hevents]
    exact h.events
  · exact h.target
  · rw [hevents]
    exact h.lines

end Agent.SameReport

/-! ## Matching engines -/

/-- Engines that are related by `R` stay so on packets related by `τ`, and report the same events
under `g`, up to order; `δ` translates times. -/
structure Engine.Matching (R : Engine F → Engine F → Prop) (τ : PacketMeta → PacketMeta)
    (δ : ℕ → ℕ) (g : L4Event F → L4Event F) (Ok : PacketMeta → Prop) : Prop where
  key : ∀ pkt, (τ pkt).key = pkt.key
  tsNanos : ∀ pkt, (τ pkt).tsNanos = δ pkt.tsNanos
  keeps : L4Event.Keeps g
  processes : ∀ {e e' f f' : Engine F} {pkt : PacketMeta} {evs evs' : List (L4Event F)}, R e e' →
    Ok pkt → e.Processes pkt evs f → e'.Processes (τ pkt) evs' f' →
    R f f' ∧ evs'.Perm (evs.map g)
  sweeps : ∀ {e e' f f' : Engine F} {now : ℕ} {evs evs' : List (L4Event F)}, R e e' →
    e.Sweeps now evs f → e'.Sweeps (δ now) evs' f' → R f f' ∧ evs'.Perm (evs.map g)
  stats : ∀ {e e' : Engine F} (now : ℕ), R e e' → e'.stats (δ now) = e.stats now

namespace Engine.Matching

variable {R : Engine F → Engine F → Prop} {τ : PacketMeta → PacketMeta} {δ : ℕ → ℕ}
  {g : L4Event F → L4Event F} {Ok : PacketMeta → Prop} (M : Engine.Matching R τ δ g Ok)
  {o : Settings} {a a' : Agent F}
include M

/-- Related engines publish the same gauges. -/
theorem updateGauges (hR : R a.engine a'.engine) (h : a.SameReport g a') (now : ℕ) :
    (a.updateGauges now).SameReport g (a'.updateGauges (δ now)) := by
  rw [Agent.updateGauges, Agent.updateGauges, M.stats now hR]
  exact h.record rfl

/-- One packet, on both sides. -/
theorem received (hR : R a.engine a'.engine) (h : a.SameReport g a') {pkt : PacketMeta}
    (hok : Ok pkt) {evs evs' : List (L4Event F)} {e e' : Engine F}
    (hp : a.engine.Processes pkt evs e) (hp' : a'.engine.Processes (τ pkt) evs' e') :
    R (a.received o pkt evs e).engine (a'.received o (τ pkt) evs' e').engine ∧
      (a.received o pkt evs e).SameReport g (a'.received o (τ pkt) evs' e') := by
  have hnone :
      ([.recordPacket (o.podIp pkt.key)] : List (RegistryOp F)).filterMap RegistryOp.event? = [] :=
    rfl
  have hrecord := h.record hnone
  have hcounted : (a.counted o pkt e).SameReport g (a'.counted o (τ pkt) e') := by
    rw [Agent.counted, Agent.counted, M.key]
    exact ⟨congrArg (· + 1) h.packets, hrecord.summary, hrecord.metrics, hrecord.console,
      hrecord.events, hrecord.target, hrecord.lines⟩
  obtain ⟨hengine, hevs⟩ := M.processes hR hok hp hp'
  have hdone := hcounted.handleEvents (o := o) M.keeps hevs
  have hR' : R (evs.foldl (Agent.handleEvent o) (a.counted o pkt e)).engine
      (evs'.foldl (Agent.handleEvent o) (a'.counted o (τ pkt) e')).engine := by
    rw [Agent.engine_foldl, Agent.engine_foldl]
    exact hengine
  constructor
  · rw [Agent.engine_received, Agent.engine_received]
    exact hengine
  · rw [Agent.received_eq, Agent.received_eq, h.packets, M.tsNanos]
    dsimp only
    split_ifs
    · exact M.updateGauges hR' hdone pkt.tsNanos
    · exact hdone

/-- **The loop, on both sides.**  After every packet the agents show the same. -/
theorem hashLoop (hR : R a.engine a'.engine) (h : a.SameReport g a') {pkts : List PacketMeta}
    (hok : ∀ pkt ∈ pkts, Ok pkt) {as as' : List (Agent F)} (hloop : Agent.HashLoop o a pkts as)
    (hloop' : Agent.HashLoop o a' (pkts.map τ) as') :
    List.Forall₂ (fun b b' : Agent F => R b.engine b'.engine ∧ b.SameReport g b') as as' := by
  induction hloop generalizing a' as' with
  | nil a =>
      cases hloop'
      exact List.Forall₂.nil
  | cons hp _ ih =>
      cases hloop' with
      | cons hp' hrest' =>
          obtain ⟨hpkt, hpkts⟩ := List.forall_mem_cons.1 hok
          have hstep := M.received (o := o) hR h hpkt hp hp'
          exact List.Forall₂.cons hstep (ih hstep.1 hstep.2 hpkts hrest')

/-- The final sweep, on both sides. -/
theorem swept (hR : R a.engine a'.engine) (h : a.SameReport g a')
    (htime : a'.lastTs = δ a.lastTs) {evs evs' : List (L4Event F)} {e e' : Engine F}
    (hs : a.engine.Sweeps a.lastTs evs e) (hs' : a'.engine.Sweeps a'.lastTs evs' e') :
    R (a.swept o evs e).engine (a'.swept o evs' e').engine ∧
      (a.swept o evs e).SameReport g (a'.swept o evs' e') := by
  rw [htime] at hs'
  obtain ⟨hengine, hevs⟩ := M.sweeps hR hs hs'
  have hswept : ({ a with engine := e } : Agent F).SameReport g { a' with engine := e' } := by
    have hsame := h.congr e e' []
    rwa [List.append_nil, List.append_nil] at hsame
  have hdone := hswept.handleEvents (o := o) M.keeps hevs
  have hend : R (evs.foldl (Agent.handleEvent o) { a with engine := e }).engine
      (evs'.foldl (Agent.handleEvent o) { a' with engine := e' }).engine := by
    rw [Agent.engine_foldl, Agent.engine_foldl]
    exact hengine
  have hgauges := M.updateGauges hend hdone a.lastTs
  rw [← htime] at hgauges
  exact ⟨hend, hgauges⟩

/-- **The whole run, on both sides**: the agents show the same after every packet and at the end. -/
theorem hashRun [ToString ε] {s s' : Setup F ε}
    (hR : R (Engine.new s.detect) (Engine.new s'.detect)) (hsettings : s'.settings = s.settings)
    (htarget : s'.jsonTarget = s.jsonTarget)
    (hcapture : s'.capture = ⟨s.capture.packets.map τ, s.capture.failure⟩)
    (hok : ∀ pkt ∈ s.capture.packets, Ok pkt) (hzero : s.capture.packets = [] → δ 0 = 0)
    {as as' : List (Agent F)} {a a' : Agent F} (hrun : s.HashRun as a) (hrun' : s'.HashRun as' a') :
    List.Forall₂ (fun b b' : Agent F => R b.engine b'.engine ∧ b.SameReport g b') as as' ∧
      R a.engine a'.engine ∧ a.SameReport g a' := by
  obtain ⟨hloop, ha, hsweep⟩ := hrun
  obtain ⟨hloop', ha', hsweep'⟩ := hrun'
  rename_i b evs e b' evs' e'
  rw [hsettings, htarget, hcapture] at hloop'
  have hnew := Agent.SameReport.new (g := g) s.detect s'.detect s.jsonTarget
  have hstart :
      R (Agent.new s.detect s.jsonTarget).engine (Agent.new s'.detect s.jsonTarget).engine := hR
  have hall := M.hashLoop hstart hnew hok hloop hloop'
  refine ⟨hall, ?_⟩
  obtain ⟨hengine, hlast⟩ := forall₂_getLastD hall ⟨hR, hnew⟩
  -- the final sweep is at the time of the last packet
  have hlastTs : (as'.getLastD (.new s'.detect s.jsonTarget)).lastTs
      = δ (as.getLastD (.new s.detect s.jsonTarget)).lastTs := by
    rw [hloop'.lastTs, hloop.lastTs, List.getLast?_map]
    cases hpkt : s.capture.packets.getLast? with
    | none => exact (hzero (List.getLast?_eq_none_iff.1 hpkt)).symm
    | some pkt => exact M.tsNanos pkt
  have hfailed := hlast.failed s.capture.failure
  have hcap : s'.capture.failure = s.capture.failure := by rw [hcapture]
  rw [hcap, htarget] at ha'
  rw [← ha, ← ha'] at hfailed
  have htime : b'.lastTs = δ b.lastTs := by
    rw [ha, ha', Agent.lastTs_failed, Agent.lastTs_failed, hlastTs]
  have hb : R b.engine b'.engine := by
    rw [ha, ha', Agent.engine_failed, Agent.engine_failed]
    exact hengine
  obtain ⟨hend, hreport⟩ := M.swept (o := s.settings) hb hfailed htime hsweep hsweep'
  rw [hsettings]
  exact ⟨hend, hreport.report⟩

end Engine.Matching

/-! ## The arrangement of the tables -/

namespace Engine

/-- The gauges do not depend on the arrangement. -/
theorem SameTables.stats {e e' : Engine F} (h : e.SameTables e') (now : ℕ) :
    e'.stats now = e.stats now := by
  have hmax : e'.state.globals.halfOpenMax = e.state.globals.halfOpenMax := by
    apply UInt32.toNat_inj.1
    have hperm := ((Table.entries_perm h.state.halfOpen).map fun c => c.2).map UInt32.toNat
    rw [Globals.halfOpenMax, Globals.halfOpenMax, toNat_foldl_max, toNat_foldl_max]
    exact hperm.foldl_eq _
  rw [Engine.stats, Engine.stats, Table.size_congr h.state.flows, hmax, h.state.rstRate,
    h.state.newFlowRate]

/-- Engines with the same tables match on the same packets. -/
theorem matching_sameTables :
    Matching (F := F) SameTables id id id fun _ => True where
  key _ := rfl
  tsNanos _ := rfl
  keeps := ⟨fun _ => rfl, fun _ => rfl, fun _ => rfl, fun _ => rfl⟩
  processes h _ hp hp' := by
    rw [List.map_id]
    exact h.processes hp hp'
  sweeps h hs hs' := by
    rw [List.map_id]
    exact h.sweeps hs hs'
  stats now h := h.stats now

end Engine

/-- **The agent does not depend on the arrangement of the tables**: any two runs over a capture show
the same after every packet and at the end, up to the order of the events of one call. -/
theorem Setup.hashRun_same [ToString ε] (s : Setup F ε) {as as' : List (Agent F)} {a a' : Agent F}
    (hrun : s.HashRun as a) (hrun' : s.HashRun as' a') :
    List.Forall₂ (fun b b' : Agent F => b.engine.SameTables b'.engine ∧ b.SameReport id b') as as' ∧
      a.engine.SameTables a'.engine ∧ a.SameReport id a' := by
  refine Engine.matching_sameTables.hashRun (Engine.SameTables.refl _) rfl rfl ?_ (by simp)
    (fun _ => rfl) hrun hrun'
  rw [List.map_id]
