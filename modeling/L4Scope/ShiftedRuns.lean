/-
# The agent on a shifted capture

What the agent tells the operator does not depend on when the capture was taken: moving the clock
of a capture by whole seconds changes the times in the event lines and nothing else.  The two runs
may have their tables in different arrangements, so the events of one call agree up to order.
-/
import L4Scope.AgentRuns
import L4Scope.TimeShift

variable {F ε : Type} [F64 F] {Δ : ℕ}

/-! ## The later engine -/

namespace Engine

/-- The gauges only look at how long ago things happened. -/
theorem Later.stats (hΔ : NS_PER_SEC ∣ Δ) {e e' : Engine F} (h : e.Later Δ e') (now : ℕ) :
    e'.stats (now + Δ) = e.stats now := by
  rw [Engine.stats, Engine.stats, h.state.flows, Table.size_mapVals, Globals.halfOpenMax,
    Globals.halfOpenMax, h.state.globals.halfOpen, h.state.globals.rstRate.perSec hΔ,
    h.state.globals.newFlowRate.perSec hΔ]

/-- The engine of the later run, up to the arrangement of the tables on either side. -/
def LaterTables (Δ : ℕ) (e e' : Engine F) : Prop :=
  ∃ f f' : Engine F, e.SameTables f ∧ f.Later Δ f' ∧ f'.SameTables e'

omit [F64 F] in
/-- Both runs start with empty tables. -/
theorem laterTables_new (cfg : DetectConfig F) : (new cfg).LaterTables Δ (new cfg) :=
  ⟨new cfg, new cfg, SameTables.refl _, later_new cfg, SameTables.refl _⟩

/-- The later engine matches on the later packets. -/
theorem matching_later (hΔ : NS_PER_SEC ∣ Δ) : Matching (F := F) (LaterTables Δ)
    (PacketMeta.later Δ) (· + Δ) (L4Event.later Δ) (PacketMeta.InRange Δ) where
  key _ := rfl
  tsNanos _ := rfl
  keeps := ⟨fun _ => rfl, fun _ => rfl, fun _ => rfl, fun _ => rfl⟩
  processes {e e' g g' pkt evs evs'} h hpkt hp hp' := by
    obtain ⟨f, f', hf, hlater, hf'⟩ := h
    obtain ⟨hnext, hevents⟩ := hlater.process hΔ hpkt
    obtain ⟨hg, hevs⟩ := hf.processes hp (f.processes_process pkt)
    obtain ⟨hg', hevs'⟩ := hf'.processes (f'.processes_process (pkt.later Δ)) hp'
    rw [hevents] at hevs'
    exact ⟨⟨_, _, hg, hnext, hg'⟩, hevs'.trans (hevs.map _)⟩
  sweeps {e e' g g' now evs evs'} h hs hs' := by
    obtain ⟨f, f', hf, hlater, hf'⟩ := h
    obtain ⟨hnext, hevents⟩ := hlater.sweep now
    obtain ⟨hg, hevs⟩ := hf.sweeps hs (f.sweeps_sweep now)
    obtain ⟨hg', hevs'⟩ := hf'.sweeps (f'.sweeps_sweep (now + Δ)) hs'
    rw [hevents] at hevs'
    exact ⟨⟨_, _, hg, hnext, hg'⟩, hevs'.trans (hevs.map _)⟩
  stats now h := by
    obtain ⟨f, f', hf, hlater, hf'⟩ := h
    rw [hf'.stats, hlater.stats hΔ, hf.stats]

end Engine

/-! ## Whole runs -/

/-- The capture with its clock shifted. -/
def Setup.later (Δ : ℕ) (s : Setup F ε) : Setup F ε :=
  { s with capture := { s.capture with packets := s.capture.packets.map (PacketMeta.later Δ) } }

/-- Without packets there is nothing to report. -/
theorem Setup.HashRun.events_nil [ToString ε] {s : Setup F ε} (hnil : s.capture.packets = [])
    {as : List (Agent F)} {a : Agent F} (hrun : s.HashRun as a) : as = [] ∧ a.events = [] := by
  have hloop : as = [] := by
    obtain ⟨hloop, -, -⟩ := hrun
    rw [hnil] at hloop
    cases hloop
    rfl
  refine ⟨hloop, ?_⟩
  obtain ⟨as', hrun'⟩ := s.hashRun_agent
  have hmodel : s.agent.events = [] := by
    rw [Agent.events, s.accounts.recordedEvents, Capture.calls, Capture.lastTs, hnil]
    rfl
  have hevents := (s.hashRun_same hrun' hrun).2.2.events
  rw [hmodel] at hevents
  exact hevents.eq_nil

/-- **The operator's view does not depend on when the capture was taken.**  Shift the clock of a
capture by whole seconds, no packet being in the first second since the epoch or shifted out of 64
bits.  Then after every packet, and at the end, the summary and the registry are the same, and the
console and the events are the same up to the order of the timeouts of one sweep, the events but
for their times. -/
theorem Setup.agent_later [ToString ε] (s : Setup F ε) (hΔ : NS_PER_SEC ∣ Δ)
    (hpkts : ∀ pkt ∈ s.capture.packets, pkt.InRange Δ) {as as' : List (Agent F)} {a a' : Agent F}
    (hrun : s.HashRun as a) (hrun' : (s.later Δ).HashRun as' a') :
    List.Forall₂ (Agent.SameReport (L4Event.later Δ)) as as' ∧
      a.SameReport (L4Event.later Δ) a' := by
  by_cases hne : s.capture.packets = []
  · have hsame : s.later Δ = s := by
      rw [Setup.later, hne, List.map_nil, ← hne]
    rw [hsame] at hrun'
    obtain ⟨-, -, hend⟩ := s.hashRun_same hrun hrun'
    obtain ⟨rfl, hnil⟩ := hrun.events_nil hne
    obtain ⟨rfl, -⟩ := hrun'.events_nil hne
    refine ⟨List.Forall₂.nil, hend.packets, hend.summary, hend.metrics, hend.console, ?_,
      hend.target, ?_⟩
    · have hevents := hend.events
      rwa [hnil] at hevents ⊢
    · have hlines := hend.lines
      rwa [hnil] at hlines ⊢
  · have hmatch := Engine.matching_later (F := F) hΔ
    have hstart : Engine.LaterTables Δ (Engine.new s.detect) (Engine.new (s.later Δ).detect) :=
      Engine.laterTables_new s.detect
    obtain ⟨hall, -, hend⟩ := hmatch.hashRun hstart rfl rfl rfl hpkts
      (fun hnil => absurd hnil hne) hrun hrun'
    exact ⟨hall.imp fun _ _ h => h.2, hend⟩

namespace Sample

/-- A refused connection request two seconds after the epoch. -/
def earlyRefusal : Setup ℚ Unit where
  settings := { podMatcher := none, quiet := false }
  detect := DetectConfig.default ℚ
  jsonTarget := .stderr
  capture := {
    packets := [
      tcp 2000000000 (ep 1 5002) (ep 2 80) 0x02 100 0 64240 0,
      tcp 2500000000 (ep 2 80) (ep 1 5002) 0x14 0 101 0 0]
    failure := none }

end Sample

/-- The refused connection request, a minute and an hour later: the refusal is reported at the later
time, and everything else is the same. -/
theorem Setup.agent_later_refused :
    let s := Sample.earlyRefusal
    let s' := s.later (3660 * NS_PER_SEC)
    s.agent.events.map (fun ev => (ev.kind, ev.tsNanos)) = [(.handshakeFailure, 2500000000)] ∧
      ∃ as as', s.HashRun as s.agent ∧ s'.HashRun as' s'.agent ∧
        List.Forall₂ (Agent.SameReport (L4Event.later (3660 * NS_PER_SEC))) as as' ∧
        s.agent.SameReport (L4Event.later (3660 * NS_PER_SEC)) s'.agent := by
  intro s s'
  obtain ⟨as, hrun⟩ := s.hashRun_agent
  obtain ⟨as', hrun'⟩ := s'.hashRun_agent
  have hpkts : ∀ pkt ∈ s.capture.packets, pkt.InRange (3660 * NS_PER_SEC) := by
    intro pkt hpkt
    simp only [s, Sample.earlyRefusal, List.mem_cons, List.not_mem_nil, or_false] at hpkt
    rcases hpkt with rfl | rfl <;> exact ⟨by decide, by decide⟩
  obtain ⟨hall, hend⟩ := s.agent_later (Dvd.intro_left 3660 rfl) hpkts hrun hrun'
  exact ⟨by decide +kernel, as, as', hrun, hrun', hall, hend⟩
