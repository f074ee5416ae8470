/-
# What a counter series counts

The value of a series of the OTLP body is the number of operations on the registry that count in
it, and a series is in the body as soon as one does (`packets` always).
-/
import L4Scope.ExporterParity

variable {F : Type}

namespace RegistryOp

/-- The operation adds one to the series. -/
def countsIn (series : CounterSeries) : RegistryOp F → Bool
  | recordPacket podIp =>
    match series with
    | .packets => true
    | .podPackets ip => podIp = some ip
    | _ => false
  | recordEvent ev podIp =>
    match series with
    | .events kind severity => ev.kind.asStr = kind ∧ ev.severity.asStr = severity
    | .podEvents ip kind severity =>
      podIp = some ip ∧ ev.kind.asStr = kind ∧ ev.severity.asStr = severity
    | _ => false
  | _ => false

/-- The operation adds one to some series. -/
def isCounted (op : RegistryOp F) : Prop := ∃ series, op.countsIn series = true

end RegistryOp

namespace Registry

variable [F64 F]

/-- The snapshot after some operations. -/
def snapshotAfter (ops : List (RegistryOp F)) : MetricsSnapshot F :=
  (machine.after (Metrics.new F) ops).snapshot

/-- The packets that were recorded. -/
theorem packetsTotal_snapshotAfter (ops : List (RegistryOp F)) :
    (snapshotAfter ops).packetsTotal = ops.countP (RegistryOp.countsIn .packets) := by
  have htotal := (after_tallies ops).packetsTotal
  rw [List.length_filterMap_eq_countP] at htotal
  refine htotal.trans (List.countP_congr ?_)
  intro op _
  cases op <;> simp [RegistryOp.packet?, RegistryOp.countsIn]

/-- The series of a kind and severity. -/
theorem mem_eventSeries {ops : List (RegistryOp F)} {kind severity : String} {n : ℕ} :
    (CounterSeries.events kind severity, n) ∈ (snapshotAfter ops).eventSeries
      ↔ n = ops.countP (RegistryOp.countsIn (.events kind severity)) ∧ 0 < n := by
  have hentry : (CounterSeries.events kind severity, n) ∈ (snapshotAfter ops).eventSeries
      ↔ (toLex (kind, severity), n)
        ∈ (machine.after (Metrics.new F) ops).eventCounts.entries := by
    simp only [MetricsSnapshot.eventSeries, snapshotAfter, Metrics.snapshot, List.map_map,
      List.mem_map, Function.comp_apply, Prod.mk.injEq, CounterSeries.events.injEq]
    constructor
    · rintro ⟨⟨k, n⟩, hk, ⟨rfl, rfl⟩, rfl⟩
      exact hk
    · intro hk
      exact ⟨_, hk, ⟨rfl, rfl⟩, rfl⟩
  have hcounts : ∀ op ∈ ops, (op.event?.map fun e => eventKey e.1) = some (toLex (kind, severity))
      ↔ op.countsIn (.events kind severity) = true := by
    intro op _
    cases op with
    | recordEvent ev podIp =>
        simp [RegistryOp.event?, RegistryOp.countsIn, eventKey]
    | recordPacket podIp => simp [RegistryOp.event?, RegistryOp.countsIn]
    | setGauges flows half rst new => simp [RegistryOp.event?, RegistryOp.countsIn]
    | snapshot => simp [RegistryOp.event?, RegistryOp.countsIn]
  rw [hentry, (after_tallies ops).eventCounts, List.map_filterMap, Tally.mem_entries_filterMap,
    List.countP_congr (by simpa using hcounts)]

/-- The series of a pod's events. -/
theorem mem_podEventSeries {ops : List (RegistryOp F)} {ip kind severity : String} {n : ℕ} :
    (CounterSeries.podEvents ip kind severity, n) ∈ (snapshotAfter ops).podEventSeries
      ↔ n = ops.countP (RegistryOp.countsIn (.podEvents ip kind severity)) ∧ 0 < n := by
  have hentry : (CounterSeries.podEvents ip kind severity, n) ∈ (snapshotAfter ops).podEventSeries
      ↔ (toLex (ip, toLex (kind, severity)), n)
        ∈ (machine.after (Metrics.new F) ops).podEventCounts.entries := by
    simp only [MetricsSnapshot.podEventSeries, snapshotAfter, Metrics.snapshot, List.map_map,
      List.mem_map, Function.comp_apply, Prod.mk.injEq, CounterSeries.podEvents.injEq]
    constructor
    · rintro ⟨⟨k, n⟩, hk, ⟨rfl, rfl, rfl⟩, rfl⟩
      exact hk
    · intro hk
      exact ⟨_, hk, ⟨rfl, rfl, rfl⟩, rfl⟩
  have hcounts : ∀ op ∈ ops,
      op.event?.bind podEventKey = some (toLex (ip, toLex (kind, severity)))
        ↔ op.countsIn (.podEvents ip kind severity) = true := by
    intro op _
    cases op with
    | recordEvent ev podIp =>
        cases podIp <;> simp [RegistryOp.event?, RegistryOp.countsIn, podEventKey, eventKey]
    | recordPacket podIp => simp [RegistryOp.event?, RegistryOp.countsIn]
    | setGauges flows half rst new => simp [RegistryOp.event?, RegistryOp.countsIn]
    | snapshot => simp [RegistryOp.event?, RegistryOp.countsIn]
  rw [hentry, (after_tallies ops).podEventCounts, List.filterMap_filterMap,
    Tally.mem_entries_filterMap, List.countP_congr (by simpa using hcounts)]

/-- The series of a pod's packets. -/
theorem mem_podPacketSeries {ops : List (RegistryOp F)} {ip : String} {n : ℕ} :
    (CounterSeries.podPackets ip, n) ∈ (snapshotAfter ops).podPacketSeries
      ↔ n = ops.countP (RegistryOp.countsIn (.podPackets ip)) ∧ 0 < n := by
  have hentry : (CounterSeries.podPackets ip, n) ∈ (snapshotAfter ops).podPacketSeries
      ↔ (ip, n) ∈ (machine.after (Metrics.new F) ops).podPackets.entries := by
    simp only [MetricsSnapshot.podPacketSeries, snapshotAfter, Metrics.snapshot, List.mem_map,
      Prod.mk.injEq, CounterSeries.podPackets.injEq]
    constructor
    · rintro ⟨⟨k, n⟩, hk, rfl, rfl⟩
      exact hk
    · intro hk
      exact ⟨_, hk, rfl, rfl⟩
  have hcounts : ∀ op ∈ ops, op.packet?.bind id = some ip
      ↔ op.countsIn (.podPackets ip) = true := by
    intro op _
    cases op with
    | recordPacket podIp => simp [RegistryOp.packet?, RegistryOp.countsIn]
    | recordEvent ev podIp => simp [RegistryOp.packet?, RegistryOp.countsIn]
    | setGauges flows half rst new => simp [RegistryOp.packet?, RegistryOp.countsIn]
    | snapshot => simp [RegistryOp.packet?, RegistryOp.countsIn]
  rw [hentry, (after_tallies ops).podPackets, List.filterMap_filterMap,
    Tally.mem_entries_filterMap, List.countP_congr (by simpa using hcounts)]

/-- **A series of the body has the number of operations that count in it.** -/
theorem mem_otlpSeries {ops : List (RegistryOp F)} {series : CounterSeries} {n : ℕ} :
    (series, n) ∈ (snapshotAfter ops).otlpSeries
      ↔ n = ops.countP (RegistryOp.countsIn series) ∧ (series = .packets ∨ 0 < n) := by
  rw [MetricsSnapshot.otlpSeries_eq, List.cons_append, List.cons_append, List.mem_cons,
    List.mem_append, List.mem_append, packetsTotal_snapshotAfter]
  cases series with
  | packets =>
      simp [MetricsSnapshot.eventSeries, MetricsSnapshot.podEventSeries,
        MetricsSnapshot.podPacketSeries]
  | events kind severity =>
      simp [mem_eventSeries, MetricsSnapshot.podEventSeries, MetricsSnapshot.podPacketSeries]
  | podEvents ip kind severity =>
      simp [mem_podEventSeries, MetricsSnapshot.eventSeries, MetricsSnapshot.podPacketSeries]
  | podPackets ip =>
      simp [mem_podPacketSeries, MetricsSnapshot.eventSeries, MetricsSnapshot.podEventSeries]

/-- A counted operation is in a series of the body. -/
theorem exists_otlpSeries {ops : List (RegistryOp F)} {op : RegistryOp F} (hop : op ∈ ops)
    {series : CounterSeries} (h : op.countsIn series = true) :
    ∃ n, (series, n) ∈ (snapshotAfter ops).otlpSeries :=
  ⟨_, mem_otlpSeries.2 ⟨rfl, Or.inr (List.countP_pos_iff.2 ⟨op, hop, h⟩)⟩⟩

end Registry
