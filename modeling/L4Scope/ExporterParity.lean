/-
# Two exporters of one registry

Prometheus and OTLP publish the same four families of counters under names of their own.  The
guard around the pod-level part of the Prometheus text asks for pod events only, so it hides the
pod packets as long as there are none.
-/
import L4Scope.OtlpBody
import L4Scope.Prometheus

variable {F : Type}

/-! ## Counter series -/

/-- A counter that both exporters publish. -/
inductive CounterSeries where
  | packets
  | events (kind severity : String)
  | podEvents (podIp kind severity : String)
  | podPackets (podIp : String)
  deriving DecidableEq

/-- The counter a line of the Prometheus text publishes. -/
def PromLine.series : PromLine → Option (CounterSeries × ℕ)
  | counter "l4scope_packets_total" [] n => some (.packets, n)
  | counter "l4scope_events" [("kind", kind), ("severity", severity)] n =>
    some (.events kind severity, n)
  | counter "l4scope_pod_events" [("pod_ip", ip), ("kind", kind), ("severity", severity)] n =>
    some (.podEvents ip kind severity, n)
  | counter "l4scope_pod_packets_total" [("pod_ip", ip)] n => some (.podPackets ip, n)
  | _ => none

/-- The counter a data point of an OTLP sum publishes. -/
def SumPoint.series (name : String) (p : SumPoint) : Option (CounterSeries × ℕ) :=
  match name, p.attrs with
  | "l4scope.packets", [] => some (.packets, p.value)
  | "l4scope.events", [("l4.kind", kind), ("severity", severity)] =>
    some (.events kind severity, p.value)
  | "l4scope.pod.events", [("k8s.pod.ip", ip), ("l4.kind", kind), ("severity", severity)] =>
    some (.podEvents ip kind severity, p.value)
  | "l4scope.pod.packets", [("k8s.pod.ip", ip)] => some (.podPackets ip, p.value)
  | _, _ => none

/-- The counter series of the Prometheus text. -/
def Metrics.promSeries [F64 F] (m : Metrics F) : List (CounterSeries × ℕ) :=
  m.promLines.filterMap PromLine.series

/-- The counter series of the OTLP body. -/
def MetricsSnapshot.otlpSeries (snap : MetricsSnapshot F) : List (CounterSeries × ℕ) :=
  snap.sums.flatMap fun m => m.points.filterMap (SumPoint.series m.name)

/-! ## The series in full -/

namespace MetricsSnapshot

/-- The series of the event counts. -/
def eventSeries (snap : MetricsSnapshot F) : List (CounterSeries × ℕ) :=
  snap.eventCounts.map fun e => (.events e.1 e.2.1, e.2.2)

/-- The series of the pods' event counts. -/
def podEventSeries (snap : MetricsSnapshot F) : List (CounterSeries × ℕ) :=
  snap.podEventCounts.map fun e => (.podEvents e.1 e.2.1 e.2.2.1, e.2.2.2)

/-- The series of the pods' packet counts. -/
def podPacketSeries (snap : MetricsSnapshot F) : List (CounterSeries × ℕ) :=
  snap.podPackets.map fun e => (.podPackets e.1, e.2)

/-- An empty sum is left out of the body, and publishes nothing. -/
theorem flatMap_pushSum (name : String) (points : List SumPoint) :
    ((pushSum name points).flatMap fun m => m.points.filterMap (SumPoint.series m.name))
      = points.filterMap (SumPoint.series name) := by
  cases points with
  | nil => rfl
  | cons p ps => exact List.flatMap_singleton _ _

/-- The series of the body by the fields of the snapshot. -/
theorem otlpSeries_eq (snap : MetricsSnapshot F) :
    snap.otlpSeries = (.packets, snap.packetsTotal) :: snap.eventSeries ++ snap.podEventSeries
      ++ snap.podPacketSeries := by
  have hevents : snap.eventPoints.filterMap (SumPoint.series "l4scope.events")
      = snap.eventSeries := by
    rw [eventPoints, List.filterMap_map, eventSeries, ← List.filterMap_eq_map]
    rfl
  have hpodEvents : snap.podEventPoints.filterMap (SumPoint.series "l4scope.pod.events")
      = snap.podEventSeries := by
    rw [podEventPoints, List.filterMap_map, podEventSeries, ← List.filterMap_eq_map]
    rfl
  have hpodPackets : snap.podPacketPoints.filterMap (SumPoint.series "l4scope.pod.packets")
      = snap.podPacketSeries := by
    rw [podPacketPoints, List.filterMap_map, podPacketSeries, ← List.filterMap_eq_map]
    rfl
  rw [otlpSeries, sums, List.flatMap_append, List.flatMap_append, List.flatMap_append,
    flatMap_pushSum, flatMap_pushSum, flatMap_pushSum, hevents, hpodEvents, hpodPackets]
  rfl

end MetricsSnapshot

namespace Metrics

variable [F64 F]

/-- The series of the text by the fields of the snapshot. -/
theorem promSeries_eq (m : Metrics F) :
    m.promSeries = (.packets, m.packetsTotal) :: m.snapshot.eventSeries
      ++ if m.podEventCounts.entries.isEmpty then []
        else m.snapshot.podEventSeries ++ m.snapshot.podPacketSeries := by
  have hevents : m.promEvents.filterMap PromLine.series = m.snapshot.eventSeries := by
    rw [promEvents, List.filterMap_map, MetricsSnapshot.eventSeries, snapshot, List.map_map,
      ← List.filterMap_eq_map]
    rfl
  have hpodEvents : m.promPodEvents.filterMap PromLine.series = m.snapshot.podEventSeries := by
    rw [promPodEvents, List.filterMap_map, MetricsSnapshot.podEventSeries, snapshot, List.map_map,
      ← List.filterMap_eq_map]
    rfl
  have hpodPackets : m.promPodPackets.filterMap PromLine.series
      = m.snapshot.podPacketSeries := by
    rw [promPodPackets, List.filterMap_map, MetricsSnapshot.podPacketSeries, snapshot,
      ← List.filterMap_eq_map]
    rfl
  have hnode : m.promNode.filterMap PromLine.series
      = (.packets, m.packetsTotal) :: m.snapshot.eventSeries := by
    rw [promNode, List.filterMap_append, hevents]
    rfl
  have hgauges : m.promGauges.filterMap PromLine.series = [] := rfl
  rw [promSeries, promLines, List.filterMap_append, List.filterMap_append, hnode, hgauges,
    List.append_nil, promPods]
  split_ifs
  · rfl
  · have hnone : ∀ metric text kind : String, [PromLine.help metric text,
        PromLine.type metric kind].filterMap PromLine.series = [] := fun _ _ _ => rfl
    rw [List.filterMap_append, List.filterMap_append, List.filterMap_append, hpodEvents,
      hpodPackets, hnone, hnone, List.nil_append, List.append_nil]

/-- The exporters agree exactly if the guard is open or has nothing to hide. -/
theorem promSeries_perm_iff (m : Metrics F) :
    m.promSeries.Perm m.snapshot.otlpSeries ↔
      m.podEventCounts.entries ≠ [] ∨ m.podPackets.entries = [] := by
  rw [promSeries_eq, MetricsSnapshot.otlpSeries_eq]
  cases hpods : m.podEventCounts.entries with
  | nil =>
      have hnone : m.snapshot.podEventSeries = [] := by
        rw [MetricsSnapshot.podEventSeries, snapshot, hpods]
        rfl
      rw [hnone, List.append_nil, List.isEmpty_nil, if_pos rfl, List.append_nil]
      constructor
      · intro hperm
        right
        have hlen := hperm.length_eq
        rw [List.length_append, MetricsSnapshot.podPacketSeries, List.length_map] at hlen
        exact List.length_eq_zero_iff.1 (Nat.left_eq_add.1 hlen)
      · rintro (hne | hempty)
        · exact absurd rfl hne
        · rw [MetricsSnapshot.podPacketSeries, snapshot, hempty]
          simp
  | cons e es =>
      have hpackets : m.snapshot.packetsTotal = m.packetsTotal := rfl
      simp [hpackets]

end Metrics

/-! ## After any operations -/

namespace Registry

variable [F64 F]

/-- Whether the family of pod events is there. -/
theorem podEventCounts_ne_nil_iff (ops : List (RegistryOp F)) :
    (machine.after (Metrics.new F) ops).podEventCounts.entries ≠ [] ↔
      ∃ ev ip, RegistryOp.recordEvent ev (some ip) ∈ ops := by
  rw [(after_tallies ops).podEventCounts, ne_eq, Tally.entries_of_eq_nil,
    List.filterMap_eq_nil_iff]
  push Not
  constructor
  · rintro ⟨⟨ev, podIp⟩, hmem, hkey⟩
    cases podIp with
    | none => exact absurd rfl hkey
    | some ip => exact ⟨ev, ip, RegistryOp.mem_events.1 hmem⟩
  · rintro ⟨ev, ip, hop⟩
    exact ⟨(ev, some ip), RegistryOp.mem_events.2 hop, by simp [podEventKey]⟩

/-- Whether the family of pod packets is empty. -/
theorem podPackets_eq_nil_iff (ops : List (RegistryOp F)) :
    (machine.after (Metrics.new F) ops).podPackets.entries = [] ↔
      ∀ ip, RegistryOp.recordPacket (some ip) ∉ ops := by
  rw [(after_tallies ops).podPackets, Tally.entries_of_eq_nil, List.filterMap_eq_nil_iff]
  constructor
  · intro hnone ip hop
    exact absurd (hnone (some ip) (RegistryOp.mem_packets.2 hop)) (by simp)
  · intro hnone podIp hmem
    cases podIp with
    | none => rfl
    | some ip => exact absurd (RegistryOp.mem_packets.1 hmem) (hnone ip)

/-- **The exporters publish the same counters exactly if some event was recorded for a pod, or no
packet was.**  The series are those on the lines of the Prometheus text, which is read back as its
lines by `Metrics.parse_renderPrometheus` and `Metrics.filterMap_series`, and those in the sums of
the OTLP body, which is read back by `Otlp.body_carries_iff`. -/
theorem exporters_agree_iff (ops : List (RegistryOp F)) :
    let m := machine.after (Metrics.new F) ops
    m.promSeries.Perm m.snapshot.otlpSeries ↔
      (∃ ev ip, RegistryOp.recordEvent ev (some ip) ∈ ops) ∨
        ∀ ip, RegistryOp.recordPacket (some ip) ∉ ops := by
  intro m
  rw [Metrics.promSeries_perm_iff, podEventCounts_ne_nil_iff, podPackets_eq_nil_iff]

/-- A packet of a pod, before any event. -/
theorem pod_packet_hidden :
    let m := machine.after (Metrics.new ℚ) [.recordPacket (some "10.244.0.5")]
    ¬ m.promSeries.Perm m.snapshot.otlpSeries := by
  intro m h
  exact absurd h.length_eq (by decide)

end Registry
