/-
# The metrics registry

The registry is shared between the agent, which records, and the exporter threads, which take
snapshots; a mutex makes every operation one step.  So a run is a list of operations, in the
order in which they got the lock (`Registry.machine`).

Only the counters accumulate.  After any operations they are the tallies of what was recorded
(`Registry.after_tallies`), and everything else follows from that: what the counters have to do
with each other (`MetricsSnapshot.Consistent`), and that they never fall
(`MetricsSnapshot.GrowsTo`).
-/
import L4Scope.EventJson
import L4Scope.Machine
import L4Scope.Tally
import Mathlib.Data.Prod.Lex
import Mathlib.Data.String.Basic

variable {F : Type}

/-! ## Metrics -/

/-- The counters and gauges behind the exporters. -/
structure Metrics (F : Type) where
  packetsTotal : ℕ
  eventsTotal : ℕ
  /-- Node-level: (kind, severity) -> count. -/
  eventCounts : Tally (String ×ₗ String)
  /-- Pod-level: (pod ip, kind, severity) -> count. -/
  podEventCounts : Tally (String ×ₗ (String ×ₗ String))
  /-- Pod-level: pod ip -> packets. -/
  podPackets : Tally String
  activeFlows : ℕ
  halfOpenMax : ℕ
  rstPerSec : F
  newFlowPerSec : F

/-- `Metrics::default()`. -/
def Metrics.new (F : Type) [F64 F] : Metrics F where
  packetsTotal := 0
  eventsTotal := 0
  eventCounts := ∅
  podEventCounts := ∅
  podPackets := ∅
  activeFlows := 0
  halfOpenMax := 0
  rstPerSec := F64.ofDecimal 0 0
  newFlowPerSec := F64.ofDecimal 0 0

/-- A consistent copy of the registry for the OTLP exporter. -/
structure MetricsSnapshot (F : Type) where
  packetsTotal : ℕ
  eventsTotal : ℕ
  eventCounts : List (String × String × ℕ)
  podEventCounts : List (String × String × String × ℕ)
  podPackets : List (String × ℕ)
  activeFlows : ℕ
  halfOpenMax : ℕ
  rstPerSec : F
  newFlowPerSec : F

/-- The key under which an event is counted. -/
def eventKey (ev : L4Event F) : String ×ₗ String := toLex (ev.kind.asStr, ev.severity.asStr)

namespace Metrics

/-- Counts a packet, also for its pod. -/
def recordPacket (m : Metrics F) (podIp : Option String) : Metrics F :=
  { m with
    packetsTotal := m.packetsTotal + 1
    podPackets := match podIp with
      | some ip => m.podPackets.bump ip
      | none => m.podPackets }

/-- Counts an event, also for its pod. -/
def recordEvent (m : Metrics F) (ev : L4Event F) (podIp : Option String) : Metrics F :=
  { m with
    eventsTotal := m.eventsTotal + 1
    eventCounts := m.eventCounts.bump (eventKey ev)
    podEventCounts := match podIp with
      | some ip => m.podEventCounts.bump (toLex (ip, eventKey ev))
      | none => m.podEventCounts }

/-- Replaces the gauges. -/
def setGauges (m : Metrics F) (activeFlows halfOpenMax : ℕ) (rstPerSec newFlowPerSec : F) :
    Metrics F :=
  { m with activeFlows, halfOpenMax, rstPerSec, newFlowPerSec }

/-- The registry does not look at the order of two events. -/
theorem recordEvent_comm (m : Metrics F) (ev ev' : L4Event F) (podIp podIp' : Option String) :
    (m.recordEvent ev podIp).recordEvent ev' podIp'
      = (m.recordEvent ev' podIp').recordEvent ev podIp := by
  simp only [recordEvent, Tally.bump_comm _ (eventKey ev')]
  cases podIp <;> cases podIp' <;> simp [Tally.bump_comm]

/-- What an exporter reads. -/
def snapshot (m : Metrics F) : MetricsSnapshot F where
  packetsTotal := m.packetsTotal
  eventsTotal := m.eventsTotal
  eventCounts := m.eventCounts.entries.map fun e => ((ofLex e.1).1, (ofLex e.1).2, e.2)
  podEventCounts := m.podEventCounts.entries.map fun e =>
    ((ofLex e.1).1, (ofLex (ofLex e.1).2).1, (ofLex (ofLex e.1).2).2, e.2)
  podPackets := m.podPackets.entries
  activeFlows := m.activeFlows
  halfOpenMax := m.halfOpenMax
  rstPerSec := m.rstPerSec
  newFlowPerSec := m.newFlowPerSec

end Metrics

/-! ## Operations on the registry -/

/-- One operation under the lock. -/
inductive RegistryOp (F : Type) where
  | recordPacket (podIp : Option String)
  | recordEvent (ev : L4Event F) (podIp : Option String)
  | setGauges (activeFlows halfOpenMax : ℕ) (rstPerSec newFlowPerSec : F)
  | snapshot

namespace RegistryOp

/-- The packet an operation records: the pod it is attributed to, if any. -/
def packet? : RegistryOp F → Option (Option String)
  | recordPacket podIp => some podIp
  | _ => none

/-- The event an operation records, and the pod it is attributed to. -/
def event? : RegistryOp F → Option (L4Event F × Option String)
  | recordEvent ev podIp => some (ev, podIp)
  | _ => none

/-- The packets that were recorded. -/
theorem mem_packets {ops : List (RegistryOp F)} {podIp : Option String} :
    podIp ∈ ops.filterMap packet? ↔ recordPacket podIp ∈ ops := by
  rw [List.mem_filterMap]
  constructor
  · rintro ⟨op, hop, hpacket⟩
    cases op with
    | recordPacket podIp' => rwa [Option.some.inj hpacket] at hop
    | recordEvent ev podIp' => cases hpacket
    | setGauges activeFlows halfOpenMax rstPerSec newFlowPerSec => cases hpacket
    | snapshot => cases hpacket
  · intro hop
    exact ⟨_, hop, rfl⟩

/-- The events that were recorded. -/
theorem mem_events {ops : List (RegistryOp F)} {ev : L4Event F} {podIp : Option String} :
    (ev, podIp) ∈ ops.filterMap event? ↔ recordEvent ev podIp ∈ ops := by
  rw [List.mem_filterMap]
  constructor
  · rintro ⟨op, hop, hevent⟩
    cases op with
    | recordPacket podIp' => cases hevent
    | recordEvent ev' podIp' =>
        obtain ⟨rfl, rfl⟩ := Prod.mk.inj (Option.some.inj hevent)
        exact hop
    | setGauges activeFlows halfOpenMax rstPerSec newFlowPerSec => cases hevent
    | snapshot => cases hevent
  · intro hop
    exact ⟨_, hop, rfl⟩

/-- The operations of the agent; the exporters only take snapshots. -/
def isWrite : RegistryOp F → Bool
  | snapshot => false
  | _ => true

end RegistryOp

/-- The pod key under which an attributed event is counted. -/
def podEventKey (e : L4Event F × Option String) : Option (String ×ₗ (String ×ₗ String)) :=
  e.2.map fun ip => toLex (ip, eventKey e.1)

/-- The registry as a machine; a snapshot is its only output. -/
def Registry.machine : Machine (Metrics F) (RegistryOp F) (Option (MetricsSnapshot F)) where
  step m
    | .recordPacket podIp => (m.recordPacket podIp, none)
    | .recordEvent ev podIp => (m.recordEvent ev podIp, none)
    | .setGauges flows half rst new => (m.setGauges flows half rst new, none)
    | .snapshot => (m, some m.snapshot)

/-! ## The counters are tallies -/

/-- The counters are those of the recorded packets and events. -/
structure Metrics.Tallies (packets : List (Option String))
    (events : List (L4Event F × Option String)) (m : Metrics F) : Prop where
  packetsTotal : m.packetsTotal = packets.length
  eventsTotal : m.eventsTotal = events.length
  eventCounts : m.eventCounts = Tally.of (events.map fun e => eventKey e.1)
  podEventCounts : m.podEventCounts = Tally.of (events.filterMap podEventKey)
  podPackets : m.podPackets = Tally.of (packets.filterMap id)

namespace Registry

variable {packets : List (Option String)} {events : List (L4Event F × Option String)}
  {m : Metrics F}

/-- One more packet. -/
theorem tallies_recordPacket (h : m.Tallies packets events) (podIp : Option String) :
    (m.recordPacket podIp).Tallies (packets ++ [podIp]) events where
  packetsTotal := by
    rw [List.length_append, ← h.packetsTotal]
    rfl
  eventsTotal := h.eventsTotal
  eventCounts := h.eventCounts
  podEventCounts := h.podEventCounts
  podPackets := by
    have hlast : [podIp].filterMap id = podIp.toList := by cases podIp <;> rfl
    rw [List.filterMap_append, hlast, Tally.of_append_toList, ← h.podPackets]
    cases podIp <;> rfl

/-- One more event. -/
theorem tallies_recordEvent (h : m.Tallies packets events) (ev : L4Event F)
    (podIp : Option String) :
    (m.recordEvent ev podIp).Tallies packets (events ++ [(ev, podIp)]) where
  packetsTotal := h.packetsTotal
  eventsTotal := by
    rw [List.length_append, ← h.eventsTotal]
    rfl
  eventCounts := by
    rw [List.map_append, List.map_singleton, Tally.of_concat, ← h.eventCounts]
    rfl
  podEventCounts := by
    have hlast : [(ev, podIp)].filterMap podEventKey = (podEventKey (ev, podIp)).toList := by
      cases podIp <;> rfl
    rw [List.filterMap_append, hlast, Tally.of_append_toList, ← h.podEventCounts]
    cases podIp <;> rfl
  podPackets := h.podPackets

/-- One operation records what it says. -/
theorem tallies_step (h : m.Tallies packets events) (op : RegistryOp F) :
    (machine.step m op).1.Tallies (packets ++ op.packet?.toList) (events ++ op.event?.toList) := by
  cases op with
  | recordPacket podIp =>
      show (m.recordPacket podIp).Tallies (packets ++ [podIp]) (events ++ [])
      rw [List.append_nil]
      exact tallies_recordPacket h podIp
  | recordEvent ev podIp =>
      show (m.recordEvent ev podIp).Tallies (packets ++ []) (events ++ [(ev, podIp)])
      rw [List.append_nil]
      exact tallies_recordEvent h ev podIp
  | setGauges flows half rst new =>
      show (m.setGauges flows half rst new).Tallies (packets ++ []) (events ++ [])
      rw [List.append_nil, List.append_nil]
      exact ⟨h.packetsTotal, h.eventsTotal, h.eventCounts, h.podEventCounts, h.podPackets⟩
  | snapshot =>
      show m.Tallies (packets ++ []) (events ++ [])
      rw [List.append_nil, List.append_nil]
      exact h

/-- **The counters are the tallies of what was recorded.** -/
theorem after_tallies [F64 F] (ops : List (RegistryOp F)) :
    (machine.after (Metrics.new F) ops).Tallies (ops.filterMap RegistryOp.packet?)
      (ops.filterMap RegistryOp.event?) := by
  induction ops using List.reverseRecOn with
  | nil => exact ⟨rfl, rfl, rfl, rfl, rfl⟩
  | append_singleton ops op ih =>
      have hpacket : [op].filterMap RegistryOp.packet? = op.packet?.toList := by cases op <;> rfl
      have hevent : [op].filterMap RegistryOp.event? = op.event?.toList := by cases op <;> rfl
      rw [Machine.after_concat, List.filterMap_append, List.filterMap_append, hpacket, hevent]
      exact tallies_step ih op

end Registry

/-! ## What a snapshot adds up to -/

namespace MetricsSnapshot

/-- The events of one kind and severity. -/
def eventCount (s : MetricsSnapshot F) (kind severity : String) : ℕ :=
  ((s.eventCounts.filter fun e => e.1 = kind ∧ e.2.1 = severity).map fun e => e.2.2).sum

/-- The events of one kind and severity, over all pods. -/
def podEventCount (s : MetricsSnapshot F) (kind severity : String) : ℕ :=
  ((s.podEventCounts.filter fun e => e.2.1 = kind ∧ e.2.2.1 = severity).map fun e => e.2.2.2).sum

/-- The number of events over all kinds and severities. -/
def eventCountTotal (s : MetricsSnapshot F) : ℕ := (s.eventCounts.map fun e => e.2.2).sum

/-- The number of packets over all pods. -/
def podPacketTotal (s : MetricsSnapshot F) : ℕ := (s.podPackets.map fun e => e.2).sum

/-- What the counters have to do with each other. -/
structure Consistent (s : MetricsSnapshot F) : Prop where
  events : s.eventCountTotal = s.eventsTotal
  podEvents : ∀ kind severity, s.podEventCount kind severity ≤ s.eventCount kind severity
  podPackets : s.podPacketTotal ≤ s.packetsTotal

/-- Every counter of `s` is in `s'`, with a value at least as large. -/
structure GrowsTo (s s' : MetricsSnapshot F) : Prop where
  packetsTotal : s.packetsTotal ≤ s'.packetsTotal
  eventsTotal : s.eventsTotal ≤ s'.eventsTotal
  eventCounts : ∀ kind severity n, (kind, severity, n) ∈ s.eventCounts →
    ∃ n', (kind, severity, n') ∈ s'.eventCounts ∧ n ≤ n'
  podEventCounts : ∀ ip kind severity n, (ip, kind, severity, n) ∈ s.podEventCounts →
    ∃ n', (ip, kind, severity, n') ∈ s'.podEventCounts ∧ n ≤ n'
  podPackets : ∀ ip n, (ip, n) ∈ s.podPackets → ∃ n', (ip, n') ∈ s'.podPackets ∧ n ≤ n'

end MetricsSnapshot

namespace Metrics.Tallies

variable {packets : List (Option String)} {events : List (L4Event F × Option String)}
  {m : Metrics F}

/-- The number of events of a kind and severity. -/
theorem eventCount (h : m.Tallies packets events) (kind severity : String) :
    m.snapshot.eventCount kind severity
      = events.countP fun e => eventKey e.1 = toLex (kind, severity) := by
  have htotal : m.snapshot.eventCount kind severity
      = m.eventCounts.totalWhere fun k => k = toLex (kind, severity) := by
    rw [MetricsSnapshot.eventCount, Tally.totalWhere, Metrics.snapshot, List.filter_map,
      List.map_map]
    congr 2
    apply List.filter_congr
    rintro ⟨k, n⟩ _
    exact decide_eq_decide.2 (@Prod.ext_iff String String (ofLex k) (kind, severity)).symm
  rw [htotal, h.eventCounts, Tally.totalWhere_of, List.countP_map]
  rfl

/-- The number of those of pods. -/
theorem podEventCount (h : m.Tallies packets events) (kind severity : String) :
    m.snapshot.podEventCount kind severity
      = events.countP fun e => e.2.isSome && eventKey e.1 = toLex (kind, severity) := by
  have htotal : m.snapshot.podEventCount kind severity
      = m.podEventCounts.totalWhere fun k => (ofLex k).2 = toLex (kind, severity) := by
    rw [MetricsSnapshot.podEventCount, Tally.totalWhere, Metrics.snapshot, List.filter_map,
      List.map_map]
    congr 2
    apply List.filter_congr
    rintro ⟨k, n⟩ _
    exact decide_eq_decide.2
      (@Prod.ext_iff String String (ofLex (ofLex k).2) (kind, severity)).symm
  rw [htotal, h.podEventCounts, Tally.totalWhere_of, List.countP_filterMap]
  apply List.countP_congr
  rintro ⟨ev, podIp⟩ _
  cases podIp with
  | none => rfl
  | some ip => rfl

/-- All events. -/
theorem eventCountTotal (h : m.Tallies packets events) :
    m.snapshot.eventCountTotal = events.length := by
  rw [MetricsSnapshot.eventCountTotal, Metrics.snapshot, List.map_map]
  show m.eventCounts.total = _
  rw [h.eventCounts, Tally.total_of, List.length_map]

/-- All packets of pods. -/
theorem podPacketTotal (h : m.Tallies packets events) :
    m.snapshot.podPacketTotal = packets.countP Option.isSome := by
  show m.podPackets.total = _
  rw [h.podPackets, Tally.total_of, List.length_filterMap_eq_countP]
  rfl

/-- Tallies are consistent. -/
theorem consistent (h : m.Tallies packets events) : m.snapshot.Consistent where
  events := h.eventCountTotal.trans h.eventsTotal.symm
  podEvents kind severity := by
    rw [h.eventCount, h.podEventCount]
    apply List.countP_mono_left
    intro e _ he
    exact (Bool.and_eq_true_iff.1 he).2
  podPackets := by
    rw [h.podPacketTotal]
    exact List.countP_le_length.trans h.packetsTotal.ge

/-- Recording more does not lower a counter. -/
theorem growsTo {packets' : List (Option String)} {events' : List (L4Event F × Option String)}
    {m' : Metrics F} (h : m.Tallies packets events)
    (h' : m'.Tallies (packets ++ packets') (events ++ events')) :
    m.snapshot.GrowsTo m'.snapshot where
  packetsTotal := by
    show m.packetsTotal ≤ m'.packetsTotal
    rw [h.packetsTotal, h'.packetsTotal, List.length_append]
    omega
  eventsTotal := by
    show m.eventsTotal ≤ m'.eventsTotal
    rw [h.eventsTotal, h'.eventsTotal, List.length_append]
    omega
  eventCounts := by
    intro kind severity n hn
    obtain ⟨⟨k, n⟩, hk, heq⟩ := List.mem_map.1 hn
    rw [h.eventCounts] at hk
    obtain ⟨n', hk', hle⟩ :=
      Tally.mem_entries_of_append (events'.map fun e => eventKey e.1) hk
    rw [← List.map_append, ← h'.eventCounts] at hk'
    simp only [Prod.mk.injEq] at heq
    obtain ⟨hkind, hsev, rfl⟩ := heq
    refine ⟨n', List.mem_map.2 ⟨(k, n'), hk', ?_⟩, hle⟩
    simp only [hkind, hsev]
  podEventCounts := by
    intro ip kind severity n hn
    obtain ⟨⟨k, n⟩, hk, heq⟩ := List.mem_map.1 hn
    rw [h.podEventCounts] at hk
    obtain ⟨n', hk', hle⟩ :=
      Tally.mem_entries_of_append (events'.filterMap podEventKey) hk
    rw [← List.filterMap_append, ← h'.podEventCounts] at hk'
    simp only [Prod.mk.injEq] at heq
    obtain ⟨hip, hkind, hsev, rfl⟩ := heq
    refine ⟨n', List.mem_map.2 ⟨(k, n'), hk', ?_⟩, hle⟩
    simp only [hip, hkind, hsev]
  podPackets := by
    intro ip n hn
    have hk : (ip, n) ∈ m.podPackets.entries := hn
    rw [h.podPackets] at hk
    obtain ⟨n', hk', hle⟩ := Tally.mem_entries_of_append (packets'.filterMap id) hk
    rw [← List.filterMap_append, ← h'.podPackets] at hk'
    exact ⟨n', hk', hle⟩

end Metrics.Tallies

/-! ## Snapshots of a run -/

namespace Registry

variable [F64 F]

/-- The snapshots taken during a run, in order. -/
def snapshots (ops : List (RegistryOp F)) : List (MetricsSnapshot F) :=
  (machine.log (Metrics.new F) ops).filterMap Machine.Entry.output

/-- A snapshot is that of the state some of the operations lead to. -/
theorem mem_snapshots {ops : List (RegistryOp F)} {s : MetricsSnapshot F} (h : s ∈ snapshots ops) :
    ∃ pre, pre <+: ops ∧ s = (machine.after (Metrics.new F) pre).snapshot := by
  obtain ⟨e, he, hout⟩ := List.mem_filterMap.1 h
  obtain ⟨pre, post, hops, hstate, houtput⟩ := (machine.mem_log).1 he
  refine ⟨pre, ⟨e.input :: post, hops.symm⟩, ?_⟩
  rw [houtput, hstate] at hout
  cases hin : e.input with
  | snapshot =>
      rw [hin] at hout
      exact (Option.some.inj hout).symm
  | recordPacket podIp => simp [hin, machine] at hout
  | recordEvent ev podIp => simp [hin, machine] at hout
  | setGauges flows half rst new => simp [hin, machine] at hout

/-- One more operation. -/
theorem snapshots_concat (ops : List (RegistryOp F)) (op : RegistryOp F) :
    snapshots (ops ++ [op])
      = snapshots ops ++ (machine.step (machine.after (Metrics.new F) ops) op).2.toList := by
  rw [snapshots, Machine.log_concat, List.filterMap_append, ← snapshots]
  congr 1

/-- Further operations do not lower a counter. -/
theorem growsTo_append (pre post : List (RegistryOp F)) :
    (machine.after (Metrics.new F) pre).snapshot.GrowsTo
      (machine.after (Metrics.new F) (pre ++ post)).snapshot := by
  have hall := after_tallies (F := F) (pre ++ post)
  rw [List.filterMap_append, List.filterMap_append] at hall
  exact (after_tallies pre).growsTo hall

/-- **Counters never fall.**  In the order in which snapshots are taken, every counter of an
earlier one is in every later one, no smaller. -/
theorem snapshots_grow (ops : List (RegistryOp F)) :
    (snapshots ops).Pairwise MetricsSnapshot.GrowsTo := by
  induction ops using List.reverseRecOn with
  | nil => exact List.Pairwise.nil
  | append_singleton ops op ih =>
      rw [snapshots_concat, List.pairwise_append]
      refine ⟨ih, ?_, ?_⟩
      · cases op <;> simp [machine]
      · intro s hs s' hs'
        obtain ⟨pre, ⟨post, rfl⟩, rfl⟩ := mem_snapshots hs
        have hlast : s' = (machine.after (Metrics.new F) (pre ++ post)).snapshot := by
          cases op <;> simp [machine] at hs'
          exact hs'
        rw [hlast]
        exact growsTo_append pre post

/-- In every snapshot the counters agree. -/
theorem snapshots_consistent (ops : List (RegistryOp F)) :
    ∀ s ∈ snapshots ops, s.Consistent := by
  intro s hs
  obtain ⟨pre, _, rfl⟩ := mem_snapshots hs
  exact (after_tallies pre).consistent

end Registry
