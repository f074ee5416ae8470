/-
# Handshake milestones

A connection is established once, has one handshake RTT and is not refused after it was
established.  The engine keeps these laws as long as no SYN-ACK reaches a flow that
already has an RTT or is established, and no first SYN a flow that is established
(`EngineState.milestones_of_fresh`).  The SYN arm ignores the retransmissions of a SYN,
but the SYN-ACK arm has no such guard: a SYN-ACK seen twice takes the flow back to
`synAckSeen`.
-/
import L4Scope.HandshakeTimeout

/-- The laws of one connection, read off the deltas of its packets in order. -/
structure Milestones (ds : List PacketDelta) : Prop where
  established_once : ds.countP PacketDelta.establishedNow ≤ 1
  rtt_once : (ds.countP fun d => d.rttSampleNs.isSome) ≤ 1
  not_refused_after : ds.Pairwise fun d d' => d.establishedNow = true → d'.handshakeRefused = false

/-- What the table holds under the key of the packet is ready for it: a SYN-ACK finds
neither an RTT nor an established connection, and a first bare SYN finds no established
connection. -/
def Fresh (found : Option FlowState) (p : PacketMeta) : Prop :=
  match found with
  | none => True
  | some f =>
    (p.segment = some .synAck → f.established = false ∧ f.rttNs = none) ∧
    (p.segment = some .syn → f.synTimeNs = none → f.established = false)

instance (found : Option FlowState) (p : PacketMeta) : Decidable (Fresh found p) :=
  match found with
  | none => isTrue trivial
  | some f => inferInstanceAs (Decidable
    ((p.segment = some .synAck → f.established = false ∧ f.rttNs = none) ∧
      (p.segment = some .syn → f.synTimeNs = none → f.established = false)))

/-- If the step takes a packet on `k`, it finds the flow ready for it. -/
def Step.FreshOn {F : Type} [F64 F] (k : FlowKey) (e : Step F) : Prop :=
  ∀ p ∈ e.input.packetOn k, Fresh (e.state.flows.lookup k) p

instance {F : Type} [F64 F] (k : FlowKey) (e : Step F) : Decidable (e.FreshOn k) :=
  inferInstanceAs (Decidable (∀ p ∈ e.input.packetOn k, Fresh (e.state.flows.lookup k) p))

/-- What the handshake part of a flow remembers of the deltas of its packets. -/
structure MilestonesOf (h : Handshake) (ds : List PacketDelta) : Prop where
  established_fresh : h.established = false → ∀ d ∈ ds, d.establishedNow = false
  rtt_fresh : h.rttNs = none → ∀ d ∈ ds, d.rttSampleNs = none
  established_state : h.established = true → h.state ≠ .synSent ∧ h.state ≠ .synAckSeen
  milestones : Milestones ds

/-! ## One packet -/

namespace Milestones

/-- Nothing has happened. -/
theorem nil : Milestones [] where
  established_once := Nat.zero_le 1
  rtt_once := Nat.zero_le 1
  not_refused_after := List.Pairwise.nil

/-- A delta that repeats no milestone of the earlier ones. -/
theorem concat {ds : List PacketDelta} {d : PacketDelta} (h : Milestones ds)
    (hest : d.establishedNow = true → ∀ d' ∈ ds, d'.establishedNow = false)
    (hrtt : d.rttSampleNs.isSome = true → ∀ d' ∈ ds, d'.rttSampleNs = none)
    (href : d.handshakeRefused = true → ∀ d' ∈ ds, d'.establishedNow = false) :
    Milestones (ds ++ [d]) where
  established_once := by
    rw [List.countP_append, List.countP_singleton]
    split_ifs with hd
    · have hzero : ds.countP PacketDelta.establishedNow = 0 := by
        rw [List.countP_eq_zero]
        intro d' hd'
        rw [hest hd d' hd']
        decide
      omega
    · exact h.established_once
  rtt_once := by
    rw [List.countP_append, List.countP_singleton]
    split_ifs with hd
    · have hzero : (ds.countP fun d => d.rttSampleNs.isSome) = 0 := by
        rw [List.countP_eq_zero]
        intro d' hd'
        rw [hrtt hd d' hd']
        decide
      omega
    · exact h.rtt_once
  not_refused_after := by
    rw [List.pairwise_append]
    refine ⟨h.not_refused_after, List.pairwise_singleton _ _, ?_⟩
    intro d' hd' d'' hd'' hest'
    obtain rfl := List.mem_singleton.1 hd''
    by_contra href'
    rw [href (by simpa using href') d' hd'] at hest'
    cases hest'

end Milestones

namespace MilestonesOf

variable {h : Handshake} {ds : List PacketDelta}

/-- Nothing has happened to a new flow. -/
theorem init : MilestonesOf Handshake.init [] where
  established_fresh _ _ hd := absurd hd List.not_mem_nil
  rtt_fresh _ _ hd := absurd hd List.not_mem_nil
  established_state he := absurd he Bool.false_ne_true
  milestones := Milestones.nil

/-- A packet whose milestones the flow has not passed: the memory takes them up. -/
theorem concat (hm : MilestonesOf h ds) {h' : Handshake} {d : PacketDelta}
    (hest : h'.established = false → h.established = false ∧ d.establishedNow = false)
    (hrtt : h'.rttNs = none → h.rttNs = none ∧ d.rttSampleNs = none)
    (hstate : h'.established = true → h'.state ≠ .synSent ∧ h'.state ≠ .synAckSeen)
    (hnow : d.establishedNow = true → h.established = false)
    (hsample : d.rttSampleNs.isSome = true → h.rttNs = none)
    (href : d.handshakeRefused = true → h.established = false) :
    MilestonesOf h' (ds ++ [d]) where
  established_fresh he d' hd' := by
    rcases List.mem_append.1 hd' with hd' | hd'
    · exact hm.established_fresh (hest he).1 d' hd'
    · rw [List.mem_singleton.1 hd']
      exact (hest he).2
  rtt_fresh hr d' hd' := by
    rcases List.mem_append.1 hd' with hd' | hd'
    · exact hm.rtt_fresh (hrtt hr).1 d' hd'
    · rw [List.mem_singleton.1 hd']
      exact (hrtt hr).2
  established_state := hstate
  milestones := hm.milestones.concat (fun hd => hm.established_fresh (hnow hd))
    (fun hd => hm.rtt_fresh (hsample hd)) (fun hd => hm.established_fresh (href hd))

/-- A packet that passes no milestone and leaves the memory of them alone. -/
theorem quiet (hm : MilestonesOf h ds) {h' : Handshake} {d : PacketDelta}
    (hd : d.handshake = {}) (hest : h'.established = h.established) (hrtt : h'.rttNs = h.rttNs)
    (hstate : h.established = true → h'.state ≠ .synSent ∧ h'.state ≠ .synAckSeen) :
    MilestonesOf h' (ds ++ [d]) := by
  have hnow : d.establishedNow = false := congrArg HandshakeDelta.establishedNow hd
  have hsample : d.rttSampleNs = none := congrArg HandshakeDelta.rttSampleNs hd
  have href : d.handshakeRefused = false := congrArg HandshakeDelta.refused hd
  refine hm.concat ?_ ?_ ?_ ?_ ?_ ?_
  · intro he
    exact ⟨hest ▸ he, hnow⟩
  · intro hr
    exact ⟨hrtt ▸ hr, hsample⟩
  · intro he
    exact hstate (hest ▸ he)
  · rw [hnow]
    rintro ⟨⟩
  · rw [hsample]
    rintro ⟨⟩
  · rw [href]
    rintro ⟨⟩

/-- A SYN-ACK that finds neither an RTT nor an established connection. -/
theorem onSynAck (hm : MilestonesOf h ds) (now : ℕ) (hest : h.established = false)
    (hrtt : h.rttNs = none) {d : PacketDelta} (hd : d.handshake = (h.onSynAck now).2) :
    MilestonesOf (h.onSynAck now).1 (ds ++ [d]) := by
  have hnow : d.establishedNow = false := congrArg HandshakeDelta.establishedNow hd
  have hsample : d.rttSampleNs = h.synTimeNs.map (now - ·) :=
    congrArg HandshakeDelta.rttSampleNs hd
  refine hm.concat ?_ ?_ ?_ (fun _ => hest) (fun _ => hrtt) (fun _ => hest)
  · intro _
    exact ⟨hest, hnow⟩
  · intro hr
    have hr' : (h.synTimeNs.map (now - ·)).or h.rttNs = none := hr
    rw [hsample]
    exact ⟨hrtt, (Option.or_eq_none_iff.1 hr').1⟩
  · intro he
    exact absurd (hest.symm.trans he) (by decide)

/-- An RST: a flow in the middle of its handshake was never established. -/
theorem onRst (hm : MilestonesOf h ds) {d : PacketDelta} (hd : d.handshake = h.onRst.2) :
    MilestonesOf h.onRst.1 (ds ++ [d]) := by
  have hnow : d.establishedNow = false := congrArg HandshakeDelta.establishedNow hd
  have hsample : d.rttSampleNs = none := congrArg HandshakeDelta.rttSampleNs hd
  have href : d.handshakeRefused = decide (h.state = .synSent ∨ h.state = .synAckSeen) :=
    congrArg HandshakeDelta.refused hd
  refine hm.concat ?_ ?_ ?_ ?_ ?_ ?_
  · intro he
    exact ⟨he, hnow⟩
  · intro hr
    exact ⟨hr, hsample⟩
  · intro _
    exact ⟨by simp [Handshake.onRst], by simp [Handshake.onRst]⟩
  · rw [hnow]
    rintro ⟨⟩
  · rw [hsample]
    rintro ⟨⟩
  · rw [href, decide_eq_true_eq]
    intro hstate
    by_contra he
    have hne := hm.established_state (by simpa using he)
    rcases hstate with hs | hs
    · exact hne.1 hs
    · exact hne.2 hs

/-- The ACK that completes the handshake, perhaps with a FIN. -/
theorem onAck (hm : MilestonesOf h ds) {ack fin : Bool} {d : PacketDelta}
    (hcomplete : h.state = .synAckSeen ∧ ack = true) (hd : d.handshake = (h.onAck ack).2) :
    MilestonesOf ((h.onAck ack).1.onFin fin) (ds ++ [d]) := by
  have hack : h.onAck ack
      = ({ h with state := .established, established := true, counted := false },
        { establishedNow := true }) := by
    rw [Handshake.onAck, if_pos hcomplete]
  rw [hack] at hd ⊢
  have hsample : d.rttSampleNs = none := congrArg HandshakeDelta.rttSampleNs hd
  have hbefore : h.established = false := by
    by_contra he
    exact (hm.established_state (by simpa using he)).2 hcomplete.1
  refine hm.concat ?_ ?_ ?_ (fun _ => hbefore) ?_ (fun _ => hbefore)
  · intro he
    unfold Handshake.onFin at he
    split_ifs at he
  · intro hr
    refine ⟨?_, hsample⟩
    unfold Handshake.onFin at hr
    split_ifs at hr <;> exact hr
  · intro _
    unfold Handshake.onFin
    split_ifs <;> exact ⟨by simp, by simp⟩
  · rw [hsample]
    rintro ⟨⟩

/-- **One packet** on a flow that is ready for it. -/
theorem onPacket (hm : MilestonesOf h ds) (p : PacketMeta) {d : PacketDelta}
    (hd : d.handshake = (h.onPacket p).2)
    (hsynAck : p.segment = some .synAck → h.established = false ∧ h.rttNs = none)
    (hsyn : p.segment = some .syn → h.synTimeNs = none → h.established = false) :
    MilestonesOf (h.onPacket p).1 (ds ++ [d]) := by
  unfold Handshake.onPacket at hd ⊢
  rcases hseg : p.segment with _ | (_ | _ | _ | ⟨ack, fin⟩) <;> rw [hseg] at hd
    <;> dsimp only at hd ⊢
  · exact hm.quiet hd rfl rfl hm.established_state
  · unfold Handshake.step Handshake.onSyn
    dsimp only
    cases htime : h.synTimeNs with
    | none =>
        -- a first SYN reopens the handshake, so the flow must not be established
        have hest := hsyn hseg htime
        exact hm.quiet hd rfl rfl fun he => absurd (hest.symm.trans he) Bool.false_ne_true
    | some t => exact hm.quiet hd rfl rfl hm.established_state
  · obtain ⟨hest, hrtt⟩ := hsynAck hseg
    exact hm.onSynAck p.tsNanos hest hrtt hd
  · exact hm.onRst hd
  · by_cases hcomplete : h.state = .synAckSeen ∧ ack = true
    · exact hm.onAck hcomplete hd
    · have hack : h.onAck ack = (h, {}) := by rw [Handshake.onAck, if_neg hcomplete]
      have hstep : Handshake.step p.tsNanos h (.other ack fin) = (h.onFin fin, {}) := by
        rw [Handshake.step, hack]
      rw [hstep] at hd ⊢
      unfold Handshake.onFin
      split_ifs
      · exact hm.quiet hd rfl rfl fun _ => ⟨by simp, by simp⟩
      · exact hm.quiet hd rfl rfl hm.established_state

end MilestonesOf

/-! ## The life of a flow -/

namespace EngineState

variable {F : Type} [F64 F]

/-- **Milestones neither repeat nor regress on a flow that is ready for its packets.**
If, in the life of the flow `k` so far, every SYN-ACK found neither an RTT nor an
established connection and a first bare SYN found no established connection, then at most
one packet of this life established the connection, at most one gave an RTT, and no
packet was refused after the connection was established. -/
theorem milestones_of_fresh (cfg : DetectConfig F) (ops : List Op) (k : FlowKey)
    (hfresh : ∀ e ∈ life k (machine.log (new cfg) ops), e.FreshOn k) :
    Milestones ((life k (machine.log (new cfg) ops)).filterMap (Step.deltaOn k)) := by
  have hrun := life_rule k cfg (J := fun steps found =>
      (∀ e ∈ steps, e.FreshOn k) → MilestonesOf (handshakeOf found) (steps.filterMap (Step.deltaOn k)))
    (fun _ => MilestonesOf.init) ?_ ?_ ?_ ops
  · exact (hrun hfresh).milestones
  · intro s steps pkt _ hk ih hall
    have hsteps : ∀ e ∈ steps, e.FreshOn k := fun e he => hall e (List.mem_append_left _ he)
    have hpkt : Fresh (s.flows.lookup k) pkt := by
      refine hall (Step.of s (.update pkt)) (by simp) pkt ?_
      rw [Step.of, Op.packetOn, if_pos hk]
      rfl
    have hdelta : Step.deltaOn k (Step.of s (.update pkt))
        = some (flowStep pkt (s.flows.lookup k)).2 := by
      simp only [Step.deltaOn, Step.of, step_update, update_delta, if_pos hk]
      rw [hk]
    rw [List.filterMap_append, List.filterMap_cons_some hdelta, List.filterMap_nil,
      handshakeOf_some, handshake_flowStep_fst]
    refine (ih hsteps).onPacket pkt (handshake_flowStep_snd pkt _) ?_ ?_
    · intro hseg
      cases hf : s.flows.lookup k with
      | none => exact ⟨rfl, rfl⟩
      | some f =>
          rw [hf] at hpkt
          exact hpkt.1 hseg
    · intro hseg
      cases hf : s.flows.lookup k with
      | none => exact fun _ => rfl
      | some f =>
          rw [hf] at hpkt
          exact hpkt.2 hseg
  · intro s steps f pkt _ hk _ ih hall
    have hdelta : Step.deltaOn k (Step.of s (.update pkt)) = none := by
      simp only [Step.deltaOn, Step.of, step_update, if_neg hk]
    rw [List.filterMap_append, List.filterMap_cons_none hdelta, List.filterMap_nil, List.append_nil]
    exact ih fun e he => hall e (List.mem_append_left _ he)
  · intro s steps f f' now _ _ ih hf' hall
    have hdelta : Step.deltaOn k (Step.of s (.sweep now)) = none := rfl
    have hm := ih fun e he => hall e (List.mem_append_left _ he)
    rw [List.filterMap_append, List.filterMap_cons_none hdelta, List.filterMap_nil,
      List.append_nil, handshakeOf_some, handshake_sweepFlow hf']
    rw [handshakeOf_some] at hm
    obtain ⟨_, _, hswept, -⟩ := f.handshake.onSweep_eq (secsToNanos cfg.handshakeTimeoutSecs) now
    rw [hswept]
    exact ⟨hm.established_fresh, hm.rtt_fresh, hm.established_state, hm.milestones⟩

/-- A handshake in order. -/
theorem milestones_of_fresh_handshake :
    let c := Sample.ep 1 5000
    let s := Sample.ep 2 80
    let syn := Sample.tcp 0 c s TcpFlags.SYN 100 0 64240 0
    let synAck := Sample.tcp 1 s c (TcpFlags.SYN ||| TcpFlags.ACK) 900 101 65160 0
    let ack := Sample.tcp 2 c s TcpFlags.ACK 101 901 64240 0
    let ops : List Op := [.update syn, .update synAck, .update ack]
    Milestones ((life syn.key (machine.log (new (DetectConfig.default ℚ)) ops)).filterMap
      (Step.deltaOn syn.key)) :=
  milestones_of_fresh (DetectConfig.default ℚ) _ _ (by decide)

/-- **A SYN-ACK seen again repeats the milestones**, on a flow with a single bare SYN: the
connection is established twice. -/
theorem milestones_repeated :
    let c := Sample.ep 1 5000
    let s := Sample.ep 2 80
    let syn := Sample.tcp 0 c s TcpFlags.SYN 100 0 64240 0
    let synAck := Sample.tcp 1 s c (TcpFlags.SYN ||| TcpFlags.ACK) 900 101 65160 0
    let ack := Sample.tcp 2 c s TcpFlags.ACK 101 901 64240 0
    let ops : List Op := [.update syn, .update synAck, .update ack, .update synAck, .update ack]
    let steps := life syn.key (machine.log (new (DetectConfig.default ℚ)) ops)
    (packetsOf syn.key steps).countP PacketMeta.bareSyn ≤ 1 ∧
      ¬ Milestones (steps.filterMap (Step.deltaOn syn.key)) := by
  refine ⟨by decide, fun h => ?_⟩
  exact absurd h.established_once (by decide)

end EngineState
