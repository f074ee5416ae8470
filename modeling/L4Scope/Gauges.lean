/-
# What the gauges show

The agent publishes the engine's statistics after every 512th packet and once more at the end,
after the final sweep.  This file says which statistics are published, in order, and what they
count: the flow table, the largest number of half-open flows of one service, and the resets and
first packets of the current second.
-/
import L4Scope.Agent
import L4Scope.HalfOpen
import L4Scope.HostBursts
import Mathlib.Order.Bounds.Basic

open RollingRate

/-! ## What the statistics count -/

/-- The largest value of a list, or the initial one. -/
theorem foldl_max_isGreatest {α : Type} [LinearOrder α] (l : List α) (a : α) :
    IsGreatest {x | x = a ∨ x ∈ l} (l.foldl max a) := by
  induction l generalizing a with
  | nil => exact ⟨Or.inl rfl, fun x hx => (hx.resolve_right (List.not_mem_nil)).le⟩
  | cons b l ih =>
      obtain ⟨hmem, hle⟩ := ih (max a b)
      rw [List.foldl_cons]
      constructor
      · rcases hmem with hmax | hmem
        · rcases max_choice a b with ha | hb
          · exact Or.inl (hmax.trans ha)
          · exact Or.inr (List.mem_cons.2 (Or.inl (hmax.trans hb)))
        · exact Or.inr (List.mem_cons_of_mem _ hmem)
      · have hstart : max a b ≤ l.foldl max (max a b) := hle (Or.inl rfl)
        rintro x (rfl | hx)
        · exact (le_max_left _ _).trans hstart
        · rcases List.mem_cons.1 hx with rfl | hx
          · exact (le_max_right _ _).trans hstart
          · exact hle (Or.inr hx)

/-- The statistics of an engine that has seen the packets `pkts`, at the time `now`. -/
structure EngineStats.Exact (cfg : DetectConfig ℚ) (pkts : List PacketMeta) (e : Engine ℚ)
    (now : ℕ) (st : EngineStats ℚ) : Prop where
  activeFlows : st.activeFlows = e.state.flows.size
  halfOpenMax : IsGreatest (Set.range e.state.halfOpenFlows) st.halfOpenMax
  rstPerSec : st.rstPerSec = countInSecond (second now) (pkts.filter PacketMeta.isReset)
  newFlowPerSec : st.newFlowPerSec = countInSecond (second now) (firstPackets cfg pkts)

/-- The largest counter is the largest number. -/
theorem toNat_foldl_max (l : List UInt32) (a : UInt32) :
    (l.foldl max a).toNat = (l.map UInt32.toNat).foldl max a.toNat := by
  induction l generalizing a with
  | nil => rfl
  | cons b l ih =>
      have hmax : (max a b).toNat = max a.toNat b.toNat := by
        show (if a ≤ b then b else a).toNat = _
        split_ifs with h
        · exact (Nat.max_eq_right (UInt32.le_iff_toNat_le.1 h)).symm
        · exact (Nat.max_eq_left (le_of_not_ge fun h' => h (UInt32.le_iff_toNat_le.2 h'))).symm
      rw [List.foldl_cons, List.map_cons, List.foldl_cons, ih, hmax]

/-- The largest counter is the largest number of half-open flows of one service. -/
theorem EngineState.halfOpenMax_isGreatest {F : Type} {s : EngineState F} (h : s.HalfOpenExact) :
    IsGreatest (Set.range s.halfOpenFlows) s.globals.halfOpenMax.toNat := by
  have hmax := foldl_max_isGreatest
    ((s.globals.halfOpen.entries.map fun e => e.2).map UInt32.toNat) 0
  rw [← UInt32.toNat_zero, ← toNat_foldl_max, UInt32.toNat_zero] at hmax
  obtain ⟨hmem, hle⟩ := hmax
  have hfound : ∀ ep, s.halfOpenFlows ep ≤ s.globals.halfOpenMax.toNat := by
    intro ep
    rw [← h ep, Globals.halfOpenFor]
    cases hc : s.globals.halfOpen.lookup ep with
    | none => exact Nat.zero_le _
    | some c =>
        apply hle
        right
        rw [List.map_map]
        exact List.mem_map.2 ⟨⟨ep, c⟩, Table.mem_entries_iff.2 hc, rfl⟩
  constructor
  · rcases hmem with hzero | hmem
    · -- no counter is positive: any service attains the maximum
      let ep : Endpoint := ⟨.v4 ⟨[0, 0, 0, 0], rfl⟩, 0⟩
      have hzero : s.globals.halfOpenMax.toNat = 0 := hzero
      exact ⟨ep, by rw [hzero]; exact Nat.le_zero.1 (hzero ▸ hfound ep)⟩
    · rw [List.map_map] at hmem
      obtain ⟨⟨ep, c⟩, hentry, hc⟩ := List.mem_map.1 hmem
      refine ⟨ep, ?_⟩
      rw [← h ep, Globals.halfOpenFor, Table.mem_entries_iff.1 hentry]
      exact hc
  · rintro n ⟨ep, rfl⟩
    exact hfound ep

/-! ## The statistics after a run -/

section Runs

variable {F : Type} [F64 F]

/-- The operations of two runs. -/
theorem Engine.ops_append (e : Engine F) (cs ds : List Call) :
    e.ops (cs ++ ds) = e.ops cs ++ (machine.after e cs).ops ds := by
  induction cs generalizing e with
  | nil => rfl
  | cons c cs ih => rw [List.cons_append, ops, ops, ih, List.append_assoc, Machine.after_cons]

/-- A run with few flows starts with one. -/
theorem EngineState.FewFlows.left {s : EngineState F} {ops ops' : List Op}
    (h : s.FewFlows (ops ++ ops')) : s.FewFlows ops :=
  fun pre hpre => h pre (hpre.trans (List.prefix_append ops ops'))

/-- The half-open accounting of the calls made so far is exact. -/
theorem Engine.halfOpenExact_after {cfg : DetectConfig F} {cs ds : List Call}
    (hfew : (EngineState.new cfg).FewFlows ((Engine.new cfg).ops (cs ++ ds))) :
    (machine.after (new cfg) cs).state.HalfOpenExact := by
  rw [ops_append] at hfew
  rw [state_after]
  exact EngineState.after_halfOpenExact (EngineState.new_halfOpenExact cfg) hfew.left

end Runs

/-- The time of the last packet, 0 before the first. -/
def lastTime (pkts : List PacketMeta) : ℕ := (pkts.getLast?.map PacketMeta.tsNanos).getD 0

section Exact

variable {cfg : DetectConfig ℚ} {pkts : List PacketMeta}

variable (cfg) in
/-- A rate at the time of the last packet counts the signals of its second. -/
theorem RateSignal.perSec_after (g : RateSignal)
    (hsorted : (pkts.map PacketMeta.tsNanos).Pairwise (· ≤ ·))
    (hts : ∀ pkt ∈ pkts, pkt.tsNanos < 2 ^ 64) :
    ((g.rate (Engine.afterPackets cfg pkts).state.globals).perSec (lastTime pkts) : ℚ)
      = countInSecond (second (lastTime pkts)) (g.packets cfg pkts) := by
  have hwindow : (g.rate (Engine.afterPackets cfg pkts).state.globals).windowSecs = 1 := by
    rw [g.rate_after, recorded, windowSecs_foldl_record]
    rfl
  have hcount : (g.rate (Engine.afterPackets cfg pkts).state.globals).countWindow (lastTime pkts)
      = countInSecond (second (lastTime pkts)) (g.packets cfg pkts) := by
    cases pkts using List.reverseRecOn with
    | nil =>
        rw [g.rate_after]
        rfl
    | append_singleton pkts pkt =>
        have hlast : lastTime (pkts ++ [pkt]) = pkt.tsNanos := by
          rw [lastTime, List.getLast?_concat, Option.map_some, Option.getD_some]
        rw [hlast, g.rate_after, ← g.rate_ctx_of cfg (g.rate_after cfg pkts)]
        exact g.countWindow_ctx cfg hsorted (hts pkt (by simp))
  rw [perSec, hcount, hwindow]
  show (countInSecond _ _ : ℚ) / ((1 : ℕ) : ℚ) = _
  rw [Nat.cast_one, div_one]

/-- The statistics of an engine with the rates of the run over `pkts` and exact accounting. -/
theorem Engine.stats_exact_of {e : Engine ℚ} (hexact : e.state.HalfOpenExact)
    (hrst : e.state.globals.rstRate = (afterPackets cfg pkts).state.globals.rstRate)
    (hnew : e.state.globals.newFlowRate = (afterPackets cfg pkts).state.globals.newFlowRate)
    (hsorted : (pkts.map PacketMeta.tsNanos).Pairwise (· ≤ ·))
    (hts : ∀ pkt ∈ pkts, pkt.tsNanos < 2 ^ 64) :
    (e.stats (lastTime pkts)).Exact cfg pkts e (lastTime pkts) where
  activeFlows := rfl
  halfOpenMax := EngineState.halfOpenMax_isGreatest hexact
  rstPerSec := by
    have hper := RateSignal.resets.perSec_after cfg hsorted hts
    rw [packets_resets] at hper
    rw [stats, hrst]
    exact hper
  newFlowPerSec := by
    have hper := RateSignal.newFlows.perSec_after cfg hsorted hts
    rw [packets_newFlows] at hper
    rw [stats, hnew]
    exact hper

end Exact

/-! ## What the agent publishes -/

variable {F ε : Type}

/-- The statistics an operation publishes. -/
def RegistryOp.gauges? : RegistryOp F → Option (EngineStats F)
  | .setGauges activeFlows halfOpenMax rstPerSec newFlowPerSec =>
    some { activeFlows, halfOpenMax, rstPerSec, newFlowPerSec }
  | _ => none

variable [F64 F]

/-- The packets seen at every 512th packet, with the engine that has seen them. -/
def publishedAt (cfg : DetectConfig F) (pkts : List PacketMeta) :
    List (List PacketMeta × Engine F) :=
  (List.range (pkts.length / 512)).map fun i =>
    (pkts.take (512 * (i + 1)), Engine.afterPackets cfg (pkts.take (512 * (i + 1))))

/-- One more packet publishes if it is a 512th. -/
theorem publishedAt_concat (cfg : DetectConfig F) (pkts : List PacketMeta) (pkt : PacketMeta) :
    publishedAt cfg (pkts ++ [pkt]) = publishedAt cfg pkts
      ++ if (pkts.length + 1) % 512 = 0 then
          [(pkts ++ [pkt], Engine.afterPackets cfg (pkts ++ [pkt]))]
        else [] := by
  have hold : ∀ i ∈ List.range (pkts.length / 512),
      (pkts ++ [pkt]).take (512 * (i + 1)) = pkts.take (512 * (i + 1)) := by
    intro i hi
    have hlt := List.mem_range.1 hi
    exact List.take_append_of_le_length (by omega)
  have hsame : (List.range (pkts.length / 512)).map (fun i =>
        ((pkts ++ [pkt]).take (512 * (i + 1)),
          Engine.afterPackets cfg ((pkts ++ [pkt]).take (512 * (i + 1)))))
      = publishedAt cfg pkts :=
    List.map_congr_left fun i hi => by rw [hold i hi]
  rw [publishedAt, List.length_append, List.length_singleton]
  split_ifs with hdue
  · have hcount : (pkts.length + 1) / 512 = pkts.length / 512 + 1 := by omega
    have hall : 512 * (pkts.length / 512 + 1) = (pkts ++ [pkt]).length := by
      rw [List.length_append, List.length_singleton]
      omega
    rw [hcount, List.range_succ, List.map_append, hsame, List.map_singleton, hall,
      List.take_length]
  · have hcount : (pkts.length + 1) / 512 = pkts.length / 512 := by omega
    rw [hcount, hsame, List.append_nil]

namespace Agent

variable {o : Settings}

/-- Events publish nothing. -/
theorem gauges_foldl (evs : List (L4Event F)) (a : Agent F) :
    (evs.foldl (handleEvent o) a).registryOps.filterMap RegistryOp.gauges?
      = a.registryOps.filterMap RegistryOp.gauges? := by
  induction evs generalizing a with
  | nil => rfl
  | cons ev evs ih =>
      rw [List.foldl_cons, ih, handleEvent, List.filterMap_append]
      exact List.append_nil _

/-- The statistics are published. -/
theorem gauges_updateGauges (a : Agent F) (now : ℕ) :
    (a.updateGauges now).registryOps.filterMap RegistryOp.gauges?
      = a.registryOps.filterMap RegistryOp.gauges? ++ [a.engine.stats now] := by
  rw [updateGauges, List.filterMap_append]
  rfl

/-- The statistics published by the loop over the packets. -/
theorem gauges_foldl_onPacket (o : Settings) (cfg : DetectConfig F) (target : JsonTarget)
    (pkts : List PacketMeta) :
    (pkts.foldl (onPacket o) (new cfg target)).registryOps.filterMap RegistryOp.gauges?
      = (publishedAt cfg pkts).map fun p => p.2.stats (lastTime p.1) := by
  induction pkts using List.reverseRecOn with
  | nil => rfl
  | append_singleton pkts pkt ih =>
      obtain ⟨hengine, haccounts⟩ := accounts_foldl o cfg target pkts
      have hpulled : ((pkts.foldl (onPacket o) (new cfg target)).pulled o pkt).registryOps.filterMap
          RegistryOp.gauges? = (publishedAt cfg pkts).map fun p => p.2.stats (lastTime p.1) := by
        rw [pulled, List.filterMap_append, ih]
        exact List.append_nil _
      have hlast : lastTime (pkts ++ [pkt]) = pkt.tsNanos := by
        rw [lastTime, List.getLast?_concat, Option.map_some, Option.getD_some]
      rw [List.foldl_append, List.foldl_cons, List.foldl_nil, onPacket_eq, haccounts.packets,
        publishedAt_concat, List.map_append]
      dsimp only
      split_ifs
      · rw [gauges_updateGauges, gauges_foldl, hpulled, engine_foldl, pulled, hengine,
          List.map_singleton, hlast, Engine.afterPackets_concat]
        rfl
      · rw [gauges_foldl, hpulled, List.map_nil, List.append_nil]

end Agent

/-- The last statistics, after the final sweep. -/
def finallyAt (cfg : DetectConfig F) (pkts : List PacketMeta) : List PacketMeta × Engine F :=
  (pkts, ((Engine.afterPackets cfg pkts).sweep (lastTime pkts)).1)

/-- **The published statistics**, in order. -/
theorem Setup.gauges_agent [ToString ε] (s : Setup F ε) :
    s.agent.registryOps.filterMap RegistryOp.gauges?
      = (publishedAt s.detect s.capture.packets ++ [finallyAt s.detect s.capture.packets]).map
        fun p => p.2.stats (lastTime p.1) := by
  obtain ⟨hengine, haccounts⟩ :=
    Agent.accounts_foldl s.settings s.detect s.jsonTarget s.capture.packets
  have hgauges := Agent.gauges_foldl_onPacket s.settings s.detect s.jsonTarget s.capture.packets
  have hlast := haccounts.lastTs
  -- an error at the end of the capture only adds a line on the console
  have hloop : ∀ a : Agent F, a.captureLoop s.settings s.capture
      = { s.capture.packets.foldl (Agent.onPacket s.settings) a with
          console := (a.captureLoop s.settings s.capture).console } := by
    intro a
    rw [Agent.captureLoop]
    cases s.capture.failure <;> rfl
  have hreport : s.agent.registryOps
      = (((Agent.new s.detect s.jsonTarget).captureLoop s.settings s.capture).finalSweep
        s.settings).registryOps := rfl
  rw [hreport, Agent.finalSweep_eq, Agent.gauges_updateGauges, Agent.gauges_foldl,
    Agent.engine_foldl, hloop]
  dsimp only
  rw [hgauges, hlast, hengine, List.map_append]
  rfl

/-- **The gauges are exact.**  On a capture in time order, the agent publishes statistics after
every 512th packet and after the final sweep, and never else.  Each says how many flows the engine
tracks, the largest number of half-open flows of one service, and how many of the packets so far
were resets, and how many the first of their flow, in the second of the last one. -/
theorem Setup.gauges_exact [ToString ε] (s : Setup ℚ ε)
    (hsorted : (s.capture.packets.map PacketMeta.tsNanos).Pairwise (· ≤ ·))
    (hts : ∀ pkt ∈ s.capture.packets, pkt.tsNanos < 2 ^ 64)
    (hfew : (EngineState.new s.detect).FewFlows ((Engine.new s.detect).ops s.capture.calls)) :
    List.Forall₂ (fun p st => st.Exact s.detect p.1 p.2 (lastTime p.1))
      (publishedAt s.detect s.capture.packets ++ [finallyAt s.detect s.capture.packets])
      (s.agent.registryOps.filterMap RegistryOp.gauges?) := by
  rw [s.gauges_agent, List.forall₂_map_right_iff, List.forall₂_same]
  intro p hp
  rcases List.mem_append.1 hp with hp | hp
  · obtain ⟨i, -, rfl⟩ := List.mem_map.1 hp
    have hsub := List.take_sublist (512 * (i + 1)) s.capture.packets
    have hcalls : s.capture.calls
        = (s.capture.packets.take (512 * (i + 1))).map Call.process
          ++ ((s.capture.packets.drop (512 * (i + 1))).map Call.process
            ++ [.sweep s.capture.lastTs]) := by
      rw [← List.append_assoc, ← List.map_append, List.take_append_drop]
      rfl
    rw [hcalls] at hfew
    exact Engine.stats_exact_of (Engine.halfOpenExact_after hfew) rfl rfl
      (hsorted.sublist (hsub.map _)) fun pkt hpkt => hts pkt (hsub.mem hpkt)
  · rw [List.mem_singleton.1 hp]
    rw [Capture.calls] at hfew
    have hexact := Engine.halfOpenExact_after hfew
    obtain ⟨hrst, hnew⟩ := EngineState.sweep_rates
      (Engine.afterPackets s.detect s.capture.packets).state (lastTime s.capture.packets)
    exact Engine.stats_exact_of (EngineState.sweep_halfOpenExact hexact _) hrst hnew hsorted hts

/-- A connection request and its refusal, as a capture. -/
def refusedCapture : Setup ℚ Unit where
  settings := { podMatcher := none, quiet := true }
  detect := DetectConfig.default ℚ
  jsonTarget := .off
  capture := {
    packets := [
      Sample.tcp 5 (Sample.ep 1 5002) (Sample.ep 2 80) 0x02 100 0 64240 0,
      Sample.tcp 6 (Sample.ep 2 80) (Sample.ep 1 5002) 0x14 0 101 0 0]
    failure := none }

/-- Its only statistics are those after the final sweep. -/
theorem Setup.gauges_exact_refused :
    publishedAt refusedCapture.detect refusedCapture.capture.packets = [] ∧
      List.Forall₂ (fun p st => st.Exact refusedCapture.detect p.1 p.2 (lastTime p.1))
        (publishedAt refusedCapture.detect refusedCapture.capture.packets
          ++ [finallyAt refusedCapture.detect refusedCapture.capture.packets])
        (refusedCapture.agent.registryOps.filterMap RegistryOp.gauges?) := by
  have hfew : (EngineState.new refusedCapture.detect).FewFlows
      ((Engine.new refusedCapture.detect).ops refusedCapture.capture.calls) :=
    EngineState.fewFlows_of_length
      (Nat.lt_of_le_of_lt (Nat.add_le_add_left (Engine.length_ops_le _ _) _) (by decide))
  refine ⟨?_, refusedCapture.gauges_exact (by decide) (by decide) hfew⟩
  simp [publishedAt, refusedCapture]
