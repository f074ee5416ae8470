/-
# Conservation of events and packets

Every packet pulled and every event the engine returns is counted once on each of the ways they
take through the agent: in the registry, by kind and severity and by pod, in the NDJSON sink and
in the summary.  The exporters take their snapshots between the agent's operations on the
registry, in any interleaving.
-/
import L4Scope.Agent

variable {F ε : Type} [F64 F]

/-! ## Interleavings -/

/-- `ops` interleaves the agent's operations on the registry with snapshots of the exporters. -/
def Agent.Interleaved (a : Agent F) (ops : List (RegistryOp F)) : Prop :=
  ops.filter RegistryOp.isWrite = a.registryOps

namespace Agent

variable {o : Settings} {target : JsonTarget} {pkts : List PacketMeta} {evs : List (L4Event F)}
  {a : Agent F} {ops : List (RegistryOp F)}

/-- A snapshot between any two operations of the agent. -/
theorem Accounts.interleaved (h : a.Accounts o target pkts evs) (n : ℕ) :
    a.Interleaved (a.registryOps.take n ++ .snapshot :: a.registryOps.drop n) := by
  have hsnapshot : (RegistryOp.snapshot : RegistryOp F).isWrite = false := rfl
  rw [Interleaved, List.filter_append, List.filter_cons_of_neg (by simp [hsnapshot]),
    ← List.filter_append, List.take_append_drop, List.filter_eq_self]
  exact h.writes

omit [F64 F] in
/-- Snapshots record nothing. -/
theorem Interleaved.filterMap {α : Type} (h : a.Interleaved ops) {f : RegistryOp F → Option α}
    (hf : f .snapshot = none) : ops.filterMap f = a.registryOps.filterMap f := by
  rw [← h, List.filterMap_filter]
  apply List.filterMap_congr
  intro op _
  cases op with
  | snapshot => exact hf
  | recordPacket podIp => rfl
  | recordEvent ev podIp => rfl
  | setGauges flows half rst new => rfl

/-- The registry of an agent holds the tallies of its account. -/
theorem Accounts.tallies (h : a.Accounts o target pkts evs) (hops : a.Interleaved ops) :
    (Registry.machine.after (Metrics.new F) ops).Tallies (pkts.map fun p => o.podIp p.key)
      (evs.map fun ev => (ev, o.podIp ev.key)) := by
  have htallies := Registry.after_tallies ops
  rwa [hops.filterMap rfl, hops.filterMap rfl, h.recordedPackets, h.recordedEvents] at htallies

end Agent

omit [F64 F] in
/-- The key of an event is its kind and severity. -/
theorem eventKey_eq_iff (ev : L4Event F) (kind : EventKind) (severity : Severity) :
    eventKey ev = toLex (kind.asStr, severity.asStr) ↔ ev.kind = kind ∧ ev.severity = severity := by
  rw [eventKey, EmbeddingLike.apply_eq_iff_eq, Prod.mk.injEq, EventKind.asStr_injective.eq_iff,
    Severity.asStr_injective.eq_iff]

/-! ## Conservation -/

/-- **Events and metrics are conserved.**  Whatever the capture yields and however it ends: the
registry counts the packets pulled, and the registry, its counts by kind and severity, the summary
and the sink all hold the number of events of `process` and the final sweep; the pod counts of a
kind and severity add up to the events on flows with an endpoint in a pod CIDR; and in every
interleaving with snapshots these are consistent and never fall. -/
theorem Agent.conserved [ToString ε] (cfg : DetectConfig F) (m : PodMatcher) (quiet : Bool)
    (target : JsonTarget) (cap : Capture ε) {ops : List (RegistryOp F)} {a : Agent F}
    (ha : a = Setup.agent ⟨⟨some m, quiet⟩, cfg, target, cap⟩) (hops : a.Interleaved ops) :
    let s := (Registry.machine.after (Metrics.new F) ops).snapshot
    let evs := (Engine.new cfg).events cap.calls
    s.packetsTotal = cap.packets.length ∧
    (s.eventsTotal = evs.length ∧ s.eventCountTotal = evs.length ∧
      a.summary.total = evs.length ∧ (target ≠ .off → a.jsonSink.lines.length = evs.length)) ∧
    (∀ kind severity,
      s.podEventCount kind.asStr severity.asStr = (evs.countP fun ev =>
          ev.kind = kind ∧ ev.severity = severity ∧
            (m.contains ev.key.low.ip ∨ m.contains ev.key.high.ip)) ∧
        s.podEventCount kind.asStr severity.asStr ≤ s.eventCount kind.asStr severity.asStr) ∧
    s.podPacketTotal ≤ s.packetsTotal ∧
    (∀ snap ∈ Registry.snapshots ops, snap.Consistent) ∧
    (Registry.snapshots ops).Pairwise MetricsSnapshot.GrowsTo := by
  intro s evs
  have haccounts := Setup.accounts ⟨⟨some m, quiet⟩, cfg, target, cap⟩
  rw [← ha] at haccounts
  have htallies := haccounts.tallies hops
  have hconsistent := htallies.consistent
  refine ⟨?_, ⟨?_, ?_, ?_, ?_⟩, ?_, hconsistent.podPackets, Registry.snapshots_consistent ops,
    Registry.snapshots_grow ops⟩
  · exact htallies.packetsTotal.trans (List.length_map _)
  · exact htallies.eventsTotal.trans (List.length_map _)
  · exact htallies.eventCountTotal.trans (List.length_map _)
  · rw [haccounts.summary, Tally.total_of, List.length_map]
  · intro htarget
    rw [haccounts.sinkLines, if_neg htarget, List.length_map]
  · intro kind severity
    refine ⟨?_, hconsistent.podEvents _ _⟩
    -- the pod an event is attributed to lies in one of the CIDRs, if there is one
    rw [htallies.podEventCount, List.countP_map]
    apply List.countP_congr
    intro ev _
    have hpod : (Settings.podIp ⟨some m, quiet⟩ ev.key).isSome
        = (m.contains ev.key.low.ip || m.contains ev.key.high.ip) :=
      m.isSome_localPodIp ev.key
    simp only [Function.comp_apply, hpod, eventKey_eq_iff, Bool.and_eq_true, Bool.or_eq_true,
      decide_eq_true_eq]
    tauto

/-- A connection request to a pod that the pod refuses, with a snapshot before the first packet is
processed. -/
theorem Agent.conserved_refusal :
    let syn := Sample.tcp 5 (Sample.ep 1 5002) (Sample.ep 2 80) TcpFlags.SYN 100 0 64240 0
    let rst := Sample.tcp 6 (Sample.ep 2 80) (Sample.ep 1 5002) 0x14 0 101 0 0
    let cap : Capture String := ⟨[syn, rst], none⟩
    let m : PodMatcher := ⟨[((Sample.ep 2 0).ip, 24)]⟩
    let a : Agent ℚ := Setup.agent ⟨⟨some m, true⟩, DetectConfig.default ℚ, .stdout, cap⟩
    let ops := a.registryOps.take 1 ++ .snapshot :: a.registryOps.drop 1
    let s := (Registry.machine.after (Metrics.new ℚ) ops).snapshot
    s.packetsTotal = 2 ∧ s.eventsTotal = 1 ∧ a.summary.total = 1 ∧ a.jsonSink.lines.length = 1 ∧
      s.podEventCount "handshake_failure" "warning" = 1 ∧
      s.podEventCount "handshake_failure" "warning"
        ≤ s.eventCount "handshake_failure" "warning" := by
  intro syn rst cap m a ops s
  have hops : a.Interleaved ops :=
    (Setup.accounts ⟨⟨some m, true⟩, DetectConfig.default ℚ, .stdout, cap⟩).interleaved 1
  obtain ⟨hpackets, ⟨hevents, -, hsummary, hlines⟩, hpods, -⟩ :=
    conserved (DetectConfig.default ℚ) m true .stdout cap rfl hops
  have hone : ((Engine.new (DetectConfig.default ℚ)).events cap.calls).length = 1 := by
    decide +kernel
  obtain ⟨hpod, hle⟩ := hpods .handshakeFailure .warning
  exact ⟨hpackets, hevents.trans hone, hsummary.trans hone, (hlines (by decide)).trans hone,
    hpod.trans (by decide +kernel), hle⟩
