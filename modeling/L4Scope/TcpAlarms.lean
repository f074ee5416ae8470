/-
# Which flows an alarm is about

A UDP packet moves no part of its flow that a TCP detector reads, and no flow that is not TCP
ever waits for a SYN-ACK.  One detector looks past its flow: the backlog counters are kept
for each endpoint, whatever the protocol, and `inspectSynBacklog` reads them at every packet.
So the alarms are about TCP flows, except where a UDP packet meets a backlog of TCP handshakes
on its own endpoint (`tcpAlarms_iff`).
-/
import L4Scope.DetectorChain
import L4Scope.ParseTotal
import L4Scope.Bpf

variable {F : Type}

/-! ## Packets as the backends build them -/

/-- A record of the parser has the protocol of its key. -/
theorem frameRecord_wellKeyed {linktype : UInt32} {data : Bytes} {tsNanos : ℕ} {iface : UInt32}
    {pkt : PacketMeta} (h : frameRecord linktype data tsNanos iface = some pkt) : pkt.WellKeyed :=
  (parseFrame_ensures linktype data tsNanos iface).of_toOption h

/-- So has one of the eBPF source. -/
theorem EbpfSource.decode_wellKeyed {src : EbpfSource} {ev : BpfL4Event} {pkt : PacketMeta}
    (h : src.decode ev = some pkt) : pkt.WellKeyed := by
  unfold decode at h
  cases haddr : addresses ev.family ev.saddr ev.daddr with
  | none =>
      simp only [haddr] at h
      split_ifs at h <;> cases h
  | some ips =>
      simp only [haddr] at h
      split_ifs at h
      · cases h
        exact FlowKey.canonical_proto _ _ _
      · cases h
        exact FlowKey.canonical_proto _ _ _
      · cases h

/-- The packet of a call is keyed by its own protocol. -/
def Call.WellKeyed : Call → Prop
  | .process pkt => pkt.WellKeyed
  | .sweep _ => True

instance : DecidablePred Call.WellKeyed
  | .process pkt => inferInstanceAs (Decidable pkt.WellKeyed)
  | .sweep _ => inferInstanceAs (Decidable True)

/-! ## A UDP packet -/

section Udp

variable {pkt : PacketMeta}

/-- A UDP packet only sets the time. -/
theorem ingest_udp (h : pkt.proto ≠ .tcp) (w : Work) :
    ingest pkt w = { w with flow := { w.flow with lastSeenNs := pkt.tsNanos } } := by
  rw [ingest, if_neg h]

/-- It keeps the state. -/
theorem flowStep_udp_state (h : pkt.proto ≠ .tcp) (found : Option FlowState) :
    (flowStep pkt found).1.state = (found.map FlowState.state).getD .new := by
  rw [flowStep, ingest_udp h]
  cases found <;> rfl

/-- All that a UDP packet reports is whether its flow is new. -/
theorem flowStep_udp_delta (h : pkt.proto ≠ .tcp) (found : Option FlowState) :
    (flowStep pkt found).2
      = { newFlow := found.isNone, service := some (flowStep pkt found).1.service } := by
  rw [flowStep, ingest_udp h]
  cases found <;> rfl

/-- It keeps the counts. -/
theorem halfOpen_update_udp (h : pkt.proto ≠ .tcp) (s : EngineState F) :
    (s.update pkt).1.globals.halfOpen = s.globals.halfOpen := by
  show (ingest pkt (flowEntry pkt (s.flows.lookup pkt.key) s.globals)).globals.halfOpen = _
  rw [ingest_udp h]
  cases s.flows.lookup pkt.key <;> rfl

end Udp

/-! ## The flows that are not TCP -/

/-- The flows that are not TCP never start a handshake. -/
def EngineState.UdpFlowsNew (s : EngineState F) : Prop :=
  ∀ k f, s.flows.lookup k = some f → k.proto ≠ .tcp → f.state = .new

namespace EngineState

/-- A packet keeps UDP flows new. -/
theorem update_udpFlowsNew {s : EngineState F} (h : s.UdpFlowsNew) {pkt : PacketMeta}
    (hkey : pkt.WellKeyed) : (s.update pkt).1.UdpFlowsNew := by
  intro k f hf hproto
  rw [lookup_update] at hf
  split_ifs at hf with hk
  · have hudp : pkt.proto ≠ .tcp := by rwa [← hkey, ← hk]
    rw [← Option.some.inj hf, flowStep_udp_state hudp]
    cases hfound : s.flows.lookup k with
    | none => rfl
    | some f₀ => exact h k f₀ hfound hproto
  · exact h k f hf hproto

variable [F64 F]

/-- So does a sweep. -/
theorem sweep_udpFlowsNew {s : EngineState F} (h : s.UdpFlowsNew) (now : ℕ) :
    (s.sweep now).1.UdpFlowsNew := by
  intro k f hf hproto
  rw [lookup_sweep] at hf
  obtain ⟨f₀, hf₀, hsweep⟩ := Option.bind_eq_some_iff.1 hf
  have hstate := h k f₀ hf₀ hproto
  rw [sweepFlow] at hsweep
  split_ifs at hsweep <;> rw [← Option.some.inj hsweep]
  · exact hstate
  · exact hstate

/-- A sweep reports timeouts of TCP flows only. -/
theorem sweep_tcp {s : EngineState F} (h : s.UdpFlowsNew) {now : ℕ} {ev : L4Event F}
    (hev : ev ∈ (s.sweep now).2) : ev.key.proto = .tcp := by
  obtain ⟨k, f, hf, hout, rfl⟩ := mem_sweep_events.1 hev
  by_contra hproto
  have hnew := h k f hf hproto
  rw [FlowState.timedOut, hnew] at hout
  cases hout

end EngineState

variable [F64 F]

namespace Engine

/-- So does a call. -/
theorem process_udpFlowsNew {e : Engine F} (h : e.state.UdpFlowsNew) {pkt : PacketMeta}
    (hkey : pkt.WellKeyed) : (e.process pkt).1.state.UdpFlowsNew := by
  have hupdate := EngineState.update_udpFlowsNew h hkey
  rw [process_state]
  split
  · exact EngineState.sweep_udpFlowsNew hupdate _
  · exact hupdate

/-- So does a run. -/
theorem after_udpFlowsNew (cfg : DetectConfig F) {calls : List Call}
    (hkeys : ∀ c ∈ calls, c.WellKeyed) :
    (machine.after (new cfg) calls).state.UdpFlowsNew := by
  have hnew : (new cfg).state.UdpFlowsNew := by
    intro k f hf
    have hnone : (∅ : Table FlowKey FlowState).lookup k = none := AList.lookup_empty k
    cases hnone.symm.trans hf
  refine machine.after_invariant (P := fun e => e.state.UdpFlowsNew) hnew ?_
  intro e he h
  obtain ⟨pre, post, hcalls, -, -⟩ := (Machine.mem_log _).1 he
  have hc := hkeys e.input (by rw [hcalls]; simp)
  obtain ⟨s, c, out⟩ := e
  cases c with
  | process pkt => exact process_udpFlowsNew h hc
  | sweep now => exact EngineState.sweep_udpFlowsNew h now

end Engine

/-! ## What a UDP packet can raise -/

/-- The debounce of the backlog alarm lets it through. -/
def Detector.backlogReady (now : ℕ) : Detector → Bool
  | synBacklog b => (b.ready now).2
  | _ => false

/-- On a packet that moves nothing but its flow's age, only the two detectors that read
host-wide state can speak. -/
theorem Detector.inspect_quiet {ctx : DetectCtx F} {newFlow : Bool} {service : Option Endpoint}
    (hdelta : ctx.delta = { newFlow, service }) {d : Detector} (hsyn : d.kind ≠ .synBacklog)
    (hchurn : d.kind ≠ .connectionChurn) : (d.inspect ctx).2 = none := by
  cases d with
  | synBacklog b => exact absurd rfl hsyn
  | churn b => exact absurd rfl hchurn
  | retransmission => simp [inspect, inspectRetransmission, hdelta]
  | outOfOrder => simp [inspect, inspectOutOfOrder, hdelta]
  | dupAck => simp [inspect, inspectDupAck, hdelta]
  | zeroWindow => simp [inspect, inspectZeroWindow, hdelta]
  | highRtt => simp [inspect, inspectHighRtt, hdelta]
  | handshakeFailure => simp [inspect, inspectHandshakeFailure, hdelta]
  | rstStorm b => simp [inspect, inspectRstStorm, hdelta]

namespace Engine

/-- The half-open count of the packet's service, before the packet. -/
def backlog (e : Engine F) (pkt : PacketMeta) : UInt32 :=
  e.state.globals.halfOpenFor
    (((e.state.flows.lookup pkt.key).map FlowState.service).getD (guessService pkt))

/-- A packet that is not TCP meets a backlog on its service, and the debounce lets the alarm
through. -/
def udpMeetsBacklog (e : Engine F) (pkt : PacketMeta) : Bool :=
  pkt.proto ≠ .tcp && e.state.cfg.synBacklogThreshold ≤ e.backlog pkt &&
    e.detectors.any (Detector.backlogReady pkt.tsNanos)

variable {e : Engine F} {pkt : PacketMeta}

/-- When a UDP packet raises the backlog alarm. -/
theorem isSome_inspectSynBacklog_udp (h : pkt.proto ≠ .tcp) (b : Debounce) :
    (inspectSynBacklog b (e.ctx pkt)).2.isSome
      = (decide (e.state.cfg.synBacklogThreshold ≤ e.backlog pkt) &&
          (b.ready pkt.tsNanos).2) := by
  have hflow : (e.ctx pkt).flow = some (flowStep pkt (e.state.flows.lookup pkt.key)).1 := by
    show (e.state.update pkt).1.flows.lookup pkt.key = _
    rw [EngineState.lookup_update, if_pos rfl]
  have hcount : (e.ctx pkt).globals.halfOpenFor
      (flowStep pkt (e.state.flows.lookup pkt.key)).1.service = e.backlog pkt := by
    rw [backlog, flowStep_service, Globals.halfOpenFor, Globals.halfOpenFor]
    exact congrArg (fun t => (AList.lookup _ t).getD 0) (halfOpen_update_udp h e.state)
  rw [inspectSynBacklog, hflow]
  dsimp only
  rw [debounced_isSome, hcount]
  congr 1
  rw [← decide_not]
  exact decide_eq_decide.2 UInt32.not_lt

end Engine

/-- The call is a packet that is not TCP and meets a backlog. -/
def udpBacklog (c : CallEntry F) : Bool :=
  match c.input with
  | .process pkt => c.state.udpMeetsBacklog pkt
  | .sweep _ => false

namespace Engine

/-- The alerts of the chain are those of its detectors. -/
theorem mem_inspectAll {ctx : DetectCtx F} {detectors : List Detector} {ev : L4Event F} :
    ev ∈ (inspectAll ctx detectors).2 ↔ ∃ d ∈ detectors, (d.inspect ctx).2 = some ev := by
  simp [inspectAll]

/-- The chain raises a TCP alarm on a packet that is not TCP exactly if the packet meets a
backlog. -/
theorem udpMeetsBacklog_iff {e : Engine F} {pkt : PacketMeta} (h : pkt.proto ≠ .tcp) :
    e.udpMeetsBacklog pkt = true ↔
      ∃ ev ∈ (inspectAll (e.ctx pkt) e.detectors).2, ev.kind ≠ .connectionChurn := by
  rw [udpMeetsBacklog, decide_eq_true h, Bool.true_and, Bool.and_eq_true, List.any_eq_true]
  constructor
  · rintro ⟨hcount, d, hd, hready⟩
    obtain ⟨b, rfl⟩ : ∃ b, d = .synBacklog b := by
      cases d with
      | synBacklog b => exact ⟨b, rfl⟩
      | _ => cases hready
    have hsome := isSome_inspectSynBacklog_udp (e := e) h b
    have hready : (b.ready pkt.tsNanos).2 = true := hready
    rw [hcount, hready, Bool.and_true] at hsome
    obtain ⟨ev, hev⟩ := Option.isSome_iff_exists.1 hsome
    have hemits := Detector.inspect_emits (d := .synBacklog b) hev
    refine ⟨ev, mem_inspectAll.2 ⟨_, hd, hev⟩, ?_⟩
    rw [hemits.1]
    show EventKind.synBacklog ≠ .connectionChurn
    decide
  · rintro ⟨ev, hev, hkind⟩
    obtain ⟨d, hd, hinspect⟩ := mem_inspectAll.1 hev
    have hemits := Detector.inspect_emits hinspect
    have hchurn : d.kind ≠ .connectionChurn := hemits.1 ▸ hkind
    have hdelta : (e.ctx pkt).delta = { newFlow := _, service := _ } :=
      (EngineState.update_delta e.state pkt).trans (flowStep_udp_delta h _)
    by_cases hsyn : d.kind = .synBacklog
    · cases d with
      | synBacklog b =>
          have hsome := isSome_inspectSynBacklog_udp (e := e) h b
          have hinspect : (inspectSynBacklog b (e.ctx pkt)).2 = some ev := hinspect
          rw [hinspect, Option.isSome_some, eq_comm, Bool.and_eq_true] at hsome
          exact ⟨hsome.1, _, hd, hsome.2⟩
      | _ => cases hsyn
    · rw [Detector.inspect_quiet hdelta hsyn hchurn] at hinspect
      cases hinspect

/-- They have the protocol of the packet. -/
theorem inspectAll_proto {e : Engine F} {pkt : PacketMeta} (h : pkt.WellKeyed) {ev : L4Event F}
    (hev : ev ∈ (inspectAll (e.ctx pkt) e.detectors).2) : ev.key.proto = pkt.proto := by
  have hkey : pkt.key.proto = pkt.proto := h
  obtain ⟨d, -, hinspect⟩ := mem_inspectAll.1 hev
  rw [(Detector.inspect_emits hinspect).2.1, ← hkey]
  rfl

/-- One packet. -/
theorem tcpAlarms_process_iff {e : Engine F} {pkt : PacketMeta} (hflows : e.state.UdpFlowsNew)
    (h : pkt.WellKeyed) :
    (∀ ev ∈ (e.process pkt).2, ev.kind ≠ .connectionChurn → ev.key.proto = .tcp) ↔
      e.udpMeetsBacklog pkt = false := by
  have hsweep (ev : L4Event F) (hev : ev ∈ if e.sweepIntervalNs ≤ pkt.tsNanos - e.lastSweepNs
      then ((e.state.update pkt).1.sweep pkt.tsNanos).2 else []) : ev.key.proto = .tcp := by
    split at hev
    · exact EngineState.sweep_tcp (EngineState.update_udpFlowsNew hflows h) hev
    · cases hev
  rw [process_events]
  by_cases hproto : pkt.proto = .tcp
  · have hfalse : e.udpMeetsBacklog pkt = false := by
      rw [udpMeetsBacklog, hproto]
      rfl
    refine iff_of_true (fun ev hev _ => ?_) hfalse
    obtain hev | hev := List.mem_append.1 hev
    · exact (inspectAll_proto h hev).trans hproto
    · exact hsweep ev hev
  · -- no event of the chain is about a TCP flow, so each has to be churn
    rw [← Bool.not_eq_true, udpMeetsBacklog_iff hproto]
    push Not
    constructor
    · intro htcp ev hev
      by_contra hkind
      exact hproto ((inspectAll_proto h hev).symm.trans
        (htcp ev (List.mem_append_left _ hev) hkind))
    · intro hchurn ev hev hkind
      obtain hev | hev := List.mem_append.1 hev
      · exact absurd (hchurn ev hev) hkind
      · exact hsweep ev hev

end Engine

/-- **The alarms are about TCP flows**, connection churn aside, in every call of every run but
those that hand the engine a UDP packet whose endpoint has a backlog of TCP handshakes, when the
debounce of the backlog alarm has run out. -/
theorem tcpAlarms_iff (cfg : DetectConfig F) {calls : List Call}
    (hkeys : ∀ c ∈ calls, c.WellKeyed) :
    ∀ c ∈ Engine.machine.log (.new cfg) calls,
      (∀ ev ∈ c.output, ev.kind ≠ .connectionChurn → ev.key.proto = .tcp) ↔
        udpBacklog c = false := by
  intro c hc
  obtain ⟨pre, post, hcalls, hstate, hout⟩ := (Machine.mem_log _).1 hc
  have hpre : ∀ c ∈ pre, c.WellKeyed := fun c hc =>
    hkeys c (by rw [hcalls]; exact List.mem_append_left _ hc)
  have hflows := Engine.after_udpFlowsNew cfg hpre
  have hinput := hkeys c.input (by rw [hcalls]; simp)
  rw [← hstate] at hflows
  obtain ⟨e, call, out⟩ := c
  cases call with
  | sweep now =>
      dsimp only at hout
      rw [hout]
      exact iff_of_true (fun ev hev _ => EngineState.sweep_tcp hflows hev) rfl
  | process pkt =>
      dsimp only at hout
      rw [hout]
      exact Engine.tcpAlarms_process_iff hflows hinput

namespace Sample

/-- A UDP packet. -/
def udp (ts : ℕ) (s d : Endpoint) : PacketMeta where
  tsNanos := ts
  key := (FlowKey.canonical s d .udp).1
  dir := (FlowKey.canonical s d .udp).2
  proto := .udp
  flags := ⟨0⟩
  seq := 0
  ack := 0
  window := 0
  payloadLen := 40
  ttl := 64
  iface := 0

/-- Two half-open handshakes with a name server, then a query over UDP after `gap`. -/
def queryBehindSyns (gap : ℕ) : List Call :=
  let syn (t : ℕ) (c : Endpoint) : Call := .process (tcp t c (ep 2 53) TcpFlags.SYN 10 0 100 0)
  [syn 1000000000 (ep 3 4000), syn 1000000001 (ep 4 4000),
    .process (udp (1000000001 + gap) (ep 5 6000) (ep 2 53))]

/-- A configuration that takes two half-open connections for a backlog. -/
def twoHalfOpen : DetectConfig ℚ := { DetectConfig.default ℚ with synBacklogThreshold := 2 }

end Sample

/-- A query over UDP to a server with two half-open handshakes raises the backlog alarm. -/
theorem queryBehindSyns_alarm :
    ¬ ∀ c ∈ Engine.machine.log (.new Sample.twoHalfOpen) (Sample.queryBehindSyns 10000000000),
      ∀ ev ∈ c.output, ev.kind ≠ .connectionChurn → ev.key.proto = .tcp := by
  decide +kernel

/-- While the debounce of the alarm that the handshakes raised lasts, it does not. -/
theorem queryBehindSyns_debounced :
    (∃ c ∈ Engine.machine.log (.new Sample.twoHalfOpen) (Sample.queryBehindSyns 9000000000),
      Engine.alerts .synBacklog c.output ≠ []) ∧
    ∀ c ∈ Engine.machine.log (.new Sample.twoHalfOpen) (Sample.queryBehindSyns 9000000000),
      ∀ ev ∈ c.output, ev.kind ≠ .connectionChurn → ev.key.proto = .tcp := by
  refine ⟨by decide +kernel, fun c hc => ?_⟩
  have hquiet : ∀ c ∈ Engine.machine.log (.new Sample.twoHalfOpen)
      (Sample.queryBehindSyns 9000000000), udpBacklog c = false := by decide +kernel
  exact (tcpAlarms_iff Sample.twoHalfOpen (by decide) c hc).2 (hquiet c hc)
