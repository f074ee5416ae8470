/-
# Bursts and the seconds they fall in

The rates behind the reset storm and the connection churn keep one bucket for each calendar
second, so an alarm with threshold `N` is raised in a run exactly if some second holds `N` of
its packets (`RateSignal.raised_iff`).  A burst of `N` packets less than a second apart that
straddles the boundary of two seconds can go by unnoticed (`storms_noticed_iff`).
-/
import L4Scope.HostAlerts
import L4Scope.HostRates

open RollingRate

/-! ## Bursts -/

/-- Among the packets there are `n` that lie within less than a second of each other. -/
def Burst (n : ℕ) (pkts : List PacketMeta) : Prop :=
  ∃ b : List PacketMeta, b.Sublist pkts ∧ b.length = n ∧
    ∀ p ∈ b, ∀ q ∈ b, p.tsNanos < q.tsNanos + NS_PER_SEC

/-- Among the packets there are `n` in one calendar second. -/
def BurstInSecond (n : ℕ) (pkts : List PacketMeta) : Prop :=
  ∃ b : List PacketMeta, b.Sublist pkts ∧ b.length = n ∧
    ∀ p ∈ b, ∀ q ∈ b, second p.tsNanos = second q.tsNanos

/-- The number of packets in a second. -/
def countInSecond (sec : ℕ) (pkts : List PacketMeta) : ℕ :=
  pkts.countP fun p => second p.tsNanos == sec

/-- A burst lies in one second. -/
theorem burstInSecond_iff {n : ℕ} (hn : 1 ≤ n) (pkts : List PacketMeta) :
    BurstInSecond n pkts ↔ ∃ sec, n ≤ countInSecond sec pkts := by
  constructor
  · rintro ⟨b, hb, rfl, hsame⟩
    obtain ⟨p, hp⟩ : ∃ p, p ∈ b := List.exists_mem_of_length_pos hn
    have hall : b.countP (fun q => second q.tsNanos == second p.tsNanos) = b.length :=
      List.countP_eq_length.2 fun q hq => beq_iff_eq.2 (hsame q hq p hp)
    exact ⟨second p.tsNanos, hall ▸ hb.countP_le⟩
  · rintro ⟨sec, hcount⟩
    let inSec := pkts.filter fun p => second p.tsNanos == sec
    have hlen : n ≤ inSec.length := by
      rwa [countInSecond, List.countP_eq_length_filter] at hcount
    have hmem (p : PacketMeta) (hp : p ∈ inSec.take n) : second p.tsNanos = sec :=
      beq_iff_eq.1 (List.mem_filter.1 (List.mem_of_mem_take hp)).2
    exact ⟨inSec.take n, (List.take_sublist n _).trans List.filter_sublist,
      List.length_take_of_le hlen, fun p hp q hq => (hmem p hp).trans (hmem q hq).symm⟩

/-! ## The rate of a signal -/

/-- A host-wide rate: what its record is called for, and where it is kept. -/
structure RateSignal where
  alarm : Alarm
  flag : PacketDelta → Bool
  rate : Globals → RollingRate
  threshold : DetectConfig ℚ → ℚ
  rate_new : rate Globals.new = RollingRate.new 1
  rate_update : ∀ (s : EngineState ℚ) (pkt : PacketMeta), rate (s.update pkt).1.globals
    = if flag (s.update pkt).2.2 then (rate s.globals).record pkt.tsNanos else rate s.globals
  rate_sweep : ∀ (s : EngineState ℚ) (now : ℕ), rate (s.sweep now).1.globals = rate s.globals
  trigger_eq : ∀ ctx : DetectCtx ℚ, alarm.trigger ctx
    = (flag ctx.delta && !F64.lt ((rate ctx.globals).perSec ctx.nowNs) (threshold ctx.cfg))

namespace RateSignal

/-- The rate of resets. -/
def resets : RateSignal where
  alarm := .rstStorm
  flag := PacketDelta.rst
  rate := Globals.rstRate
  threshold := DetectConfig.rstStormPerSec
  rate_new := rfl
  rate_update := EngineState.update_rstRate
  rate_sweep s now := (EngineState.sweep_rates s now).1
  trigger_eq _ := rfl

/-- The rate of new flows. -/
def newFlows : RateSignal where
  alarm := .churn
  flag := PacketDelta.newFlow
  rate := Globals.newFlowRate
  threshold := DetectConfig.churnPerSec
  rate_new := rfl
  rate_update := EngineState.update_newFlowRate
  rate_sweep s now := (EngineState.sweep_rates s now).2
  trigger_eq _ := rfl

variable (g : RateSignal) (cfg : DetectConfig ℚ)

/-- The packet of a call, if it raises the signal. -/
def signalled (e : CallEntry ℚ) : Option PacketMeta :=
  match e.input with
  | .process pkt => if g.flag (e.state.ctx pkt).delta then some pkt else none
  | .sweep _ => none

/-- The packets of a run that raise the signal. -/
def packets (pkts : List PacketMeta) : List PacketMeta :=
  (Engine.packetLog cfg pkts).filterMap g.signalled

/-- One more packet. -/
theorem packets_concat (pkts : List PacketMeta) (pkt : PacketMeta) :
    g.packets cfg (pkts ++ [pkt]) = g.packets cfg pkts
      ++ if g.flag ((Engine.afterPackets cfg pkts).ctx pkt).delta then [pkt] else [] := by
  rw [packets, Engine.packetLog_concat, List.filterMap_append, ← packets]
  cases hflag : g.flag ((Engine.afterPackets cfg pkts).ctx pkt).delta <;>
    simp [signalled, hflag]

/-- They are packets of the capture. -/
theorem packets_sublist (pkts : List PacketMeta) : (g.packets cfg pkts).Sublist pkts := by
  induction pkts using List.reverseRecOn with
  | nil => exact List.Sublist.refl _
  | append_singleton pkts pkt ih =>
      rw [packets_concat]
      apply ih.append
      split
      · exact List.Sublist.refl _
      · exact List.nil_sublist _

/-- A rate over seconds that has recorded the packets. -/
def recorded (pkts : List PacketMeta) : RollingRate :=
  (pkts.map PacketMeta.tsNanos).foldl record (new 1)

/-- What a packet does to a rate that has recorded the signals so far. -/
theorem rate_ctx_of {pkts : List PacketMeta}
    (h : g.rate (Engine.afterPackets cfg pkts).state.globals = recorded (g.packets cfg pkts))
    (pkt : PacketMeta) : g.rate ((Engine.afterPackets cfg pkts).ctx pkt).globals
      = recorded (g.packets cfg (pkts ++ [pkt])) := by
  have hupdate := g.rate_update (Engine.afterPackets cfg pkts).state pkt
  rw [packets_concat, recorded, List.map_append, List.foldl_append, ← recorded, ← h]
  refine hupdate.trans ?_
  show (if g.flag ((Engine.afterPackets cfg pkts).ctx pkt).delta then _ else _) = _
  cases g.flag ((Engine.afterPackets cfg pkts).ctx pkt).delta <;> rfl

/-- The rate is the record of its packets. -/
theorem rate_after (pkts : List PacketMeta) :
    g.rate (Engine.afterPackets cfg pkts).state.globals = recorded (g.packets cfg pkts) := by
  induction pkts using List.reverseRecOn with
  | nil => exact g.rate_new
  | append_singleton pkts pkt ih =>
      rw [Engine.afterPackets_concat, Engine.process_state, ← g.rate_ctx_of cfg ih]
      split
      · exact g.rate_sweep _ _
      · rfl

/-- The rate a detector sees counts the signals of the packet's second. -/
theorem countWindow_ctx {pkts : List PacketMeta} {pkt : PacketMeta}
    (hsorted : ((pkts ++ [pkt]).map PacketMeta.tsNanos).Pairwise (· ≤ ·))
    (hts : pkt.tsNanos < 2 ^ 64) :
    (g.rate ((Engine.afterPackets cfg pkts).ctx pkt).globals).countWindow pkt.tsNanos
      = countInSecond (second pkt.tsNanos) (g.packets cfg (pkts ++ [pkt])) := by
  have hsub := g.packets_sublist cfg (pkts ++ [pkt])
  have hlast : ∀ t ∈ (g.packets cfg (pkts ++ [pkt])).map PacketMeta.tsNanos,
      second t ≤ second pkt.tsNanos := by
    intro t ht
    obtain ⟨p, hp, rfl⟩ := List.mem_map.1 ht
    apply Nat.div_le_div_right
    rw [List.map_append, List.pairwise_append] at hsorted
    rcases List.mem_append.1 (hsub.mem hp) with hp | hp
    · exact hsorted.2.2 _ (List.mem_map_of_mem hp) _ List.mem_cons_self
    · rw [List.mem_singleton.1 hp]
  have htracks := tracks_foldl_record 1 (hsorted.sublist (hsub.map PacketMeta.tsNanos))
  rw [g.rate_ctx_of cfg (g.rate_after cfg pkts), recorded, countWindow_eq htracks hlast,
    windowSecs_foldl_record, List.countP_map, countInSecond]
  apply List.countP_congr
  intro p hp
  have hle := hlast _ (List.mem_map_of_mem hp)
  have hmax : second pkt.tsNanos < U64_MAX := by
    simp only [second, NS_PER_SEC, U64_MAX]
    omega
  simp only [Function.comp_apply, inWindow, Bool.and_eq_true, decide_eq_true_eq, beq_iff_eq]
  show (_ ∧ second pkt.tsNanos - 0 ≤ _) ∧ _ ↔ _
  omega

/-- A signal triggers the alarm if its second holds as many signals as the threshold. -/
theorem trigger_iff {n : ℕ} (hthreshold : g.threshold cfg = n) {pkts : List PacketMeta}
    {pkt : PacketMeta} (hsorted : ((pkts ++ [pkt]).map PacketMeta.tsNanos).Pairwise (· ≤ ·))
    (hts : pkt.tsNanos < 2 ^ 64) :
    g.alarm.trigger ((Engine.afterPackets cfg pkts).ctx pkt) = true ↔
      g.flag ((Engine.afterPackets cfg pkts).ctx pkt).delta = true ∧
        n ≤ countInSecond (second pkt.tsNanos) (g.packets cfg (pkts ++ [pkt])) := by
  have hcfg : ((Engine.afterPackets cfg pkts).ctx pkt).cfg = cfg := Engine.cfg_after cfg _
  have hwindow : (g.rate ((Engine.afterPackets cfg pkts).ctx pkt).globals).windowSecs = 1 := by
    rw [g.rate_ctx_of cfg (g.rate_after cfg pkts), recorded, windowSecs_foldl_record]
    rfl
  have hper : (g.rate ((Engine.afterPackets cfg pkts).ctx pkt).globals).perSec pkt.tsNanos
      = (countInSecond (second pkt.tsNanos) (g.packets cfg (pkts ++ [pkt])) : ℚ) := by
    rw [perSec, g.countWindow_ctx cfg hsorted hts, hwindow]
    show (countInSecond _ _ : ℚ) / ((1 : ℕ) : ℚ) = _
    rw [Nat.cast_one, div_one]
  have hnow : ((Engine.afterPackets cfg pkts).ctx pkt).nowNs = pkt.tsNanos := rfl
  have hlt (x y : ℚ) : (!F64.lt x y) = true ↔ y ≤ x := by
    show (!decide (x < y)) = true ↔ y ≤ x
    simp
  rw [g.trigger_eq, Bool.and_eq_true, hnow, hper, hcfg, hthreshold, hlt, Nat.cast_le]

/-- The alarm triggers exactly if some second holds as many signals as the threshold. -/
theorem triggers_ne_nil_iff {n : ℕ} (hn : 1 ≤ n) (hthreshold : g.threshold cfg = n)
    {pkts : List PacketMeta} (hsorted : (pkts.map PacketMeta.tsNanos).Pairwise (· ≤ ·))
    (hts : ∀ pkt ∈ pkts, pkt.tsNanos < 2 ^ 64) :
    g.alarm.triggers (Engine.packetLog cfg pkts) ≠ [] ↔
      ∃ sec, n ≤ countInSecond sec (g.packets cfg pkts) := by
  induction pkts using List.reverseRecOn with
  | nil =>
      refine iff_of_false (not_not.2 rfl) ?_
      rintro ⟨sec, hcount⟩
      exact absurd (Nat.le_zero.1 hcount) (by omega)
  | append_singleton pkts pkt ih =>
      have htrigger := g.trigger_iff cfg hthreshold hsorted (hts pkt (by simp))
      rw [List.map_append, List.pairwise_append] at hsorted
      have ih := ih hsorted.1 fun p hp => hts p (List.mem_append_left _ hp)
      -- a second gains the packet if it is a signal in it
      have hsec (sec : ℕ) : countInSecond sec (g.packets cfg (pkts ++ [pkt]))
          = countInSecond sec (g.packets cfg pkts)
            + if g.flag ((Engine.afterPackets cfg pkts).ctx pkt).delta = true ∧
                second pkt.tsNanos = sec then 1 else 0 := by
        rw [packets_concat, countInSecond, List.countP_append, ← countInSecond]
        cases g.flag ((Engine.afterPackets cfg pkts).ctx pkt).delta <;>
          simp [List.countP_singleton]
      rw [Alarm.triggers_concat]
      constructor
      · intro hne
        by_cases hon : g.alarm.trigger ((Engine.afterPackets cfg pkts).ctx pkt) = true
        · exact ⟨_, (htrigger.1 hon).2⟩
        · rw [if_neg hon, List.append_nil] at hne
          obtain ⟨sec, hsec'⟩ := ih.1 hne
          exact ⟨sec, by rw [hsec]; omega⟩
      · rintro ⟨sec, hle⟩
        by_cases hold : n ≤ countInSecond sec (g.packets cfg pkts)
        · exact List.append_ne_nil_of_left_ne_nil (ih.2 ⟨sec, hold⟩) _
        · have hboth : g.flag ((Engine.afterPackets cfg pkts).ctx pkt).delta = true ∧
              second pkt.tsNanos = sec := by
            by_contra hnot
            rw [hsec, if_neg hnot] at hle
            omega
          rw [if_pos (htrigger.2 ⟨hboth.1, hboth.2 ▸ hle⟩)]
          exact List.append_ne_nil_of_right_ne_nil _ (List.cons_ne_nil _ _)

/-- **The alarm is raised** exactly if some second holds as many signals as the threshold. -/
theorem raised_iff {n : ℕ} (hn : 1 ≤ n) (hthreshold : g.threshold cfg = n)
    {pkts : List PacketMeta} (hsorted : (pkts.map PacketMeta.tsNanos).Pairwise (· ≤ ·))
    (hts : ∀ pkt ∈ pkts, pkt.tsNanos < 2 ^ 64) :
    g.alarm.emissions (Engine.packetLog cfg pkts) ≠ [] ↔
      BurstInSecond n (g.packets cfg pkts) := by
  obtain ⟨d, -, htracks⟩ := g.alarm.tracks_run cfg hsorted
  rw [burstInSecond_iff hn, ← g.triggers_ne_nil_iff cfg hn hthreshold hsorted hts, not_iff_not]
  refine ⟨htracks.fired, fun hnil => ?_⟩
  rw [List.eq_nil_iff_forall_not_mem]
  intro t ht
  have hmem := htracks.subset t ht
  rw [hnil] at hmem
  cases hmem

end RateSignal

/-! ## Resets and first packets -/

/-- A TCP packet without SYN that carries RST. -/
def PacketMeta.isReset (pkt : PacketMeta) : Bool :=
  pkt.proto = .tcp && !pkt.flags.syn && pkt.flags.rst

/-- The packet of a call, if its flow is not in the table. -/
def firstOfFlow (e : CallEntry ℚ) : Option PacketMeta :=
  match e.input with
  | .process pkt => if (e.state.state.flows.lookup pkt.key).isNone then some pkt else none
  | .sweep _ => none

/-- The first packets of flows in a run. -/
def firstPackets (cfg : DetectConfig ℚ) (pkts : List PacketMeta) : List PacketMeta :=
  (Engine.packetLog cfg pkts).filterMap firstOfFlow

/-- The delta reports a reset exactly for those packets. -/
theorem update_rst {F : Type} (s : EngineState F) (pkt : PacketMeta) :
    (s.update pkt).2.2.rst = pkt.isReset := by
  let w := flowEntry pkt (s.flows.lookup pkt.key) s.globals
  let w' : Work := { w with flow := { w.flow with lastSeenNs := pkt.tsNanos } }
  have hentry : w'.d.rst = false := by
    show (flowEntry pkt (s.flows.lookup pkt.key) s.globals).d.rst = false
    cases s.flows.lookup pkt.key <;> rfl
  have hunchanged {v : Work} (h : v.rates = w'.rates) : v.d.rst = false :=
    (congrArg (fun r => r.2.1) h).trans hentry
  show (ingest pkt w).d.rst = _
  rw [ingest, PacketMeta.isReset]
  show (if pkt.proto = .tcp then updateTcp pkt w' else w').d.rst = _
  by_cases hproto : pkt.proto = .tcp
  · rw [if_pos hproto, hproto, updateTcp, TcpFlags.isSynOnly, TcpFlags.isSynAck]
    cases hsyn : pkt.flags.syn with
    | true =>
        cases hack : pkt.flags.ack with
        | false => exact hunchanged (rates_onSynOnly pkt w')
        | true => exact hunchanged (rates_onSynAck pkt w')
    | false =>
        cases hrst : pkt.flags.rst with
        | false => exact hunchanged (rates_onSegment pkt w')
        | true => exact congrArg (fun r => r.2.1) (rates_onRst pkt w')
  · rw [if_neg hproto, decide_eq_false hproto]
    exact hentry

/-- The delta reports a new flow exactly if the flow is not in the table. -/
theorem update_newFlow {F : Type} (s : EngineState F) (pkt : PacketMeta) :
    (s.update pkt).2.2.newFlow = (s.flows.lookup pkt.key).isNone := by
  have hrst : (flowEntry pkt (s.flows.lookup pkt.key) s.globals).d.rst = false := by
    cases s.flows.lookup pkt.key <;> rfl
  have hflag : (s.update pkt).2.2.newFlow
      = (flowEntry pkt (s.flows.lookup pkt.key) s.globals).d.newFlow :=
    congrArg (fun r => r.2.2) (rates_ingest pkt _ hrst)
  rw [hflag]
  cases s.flows.lookup pkt.key <;> rfl

/-- The packets of the first rate are the resets. -/
theorem packets_resets (cfg : DetectConfig ℚ) (pkts : List PacketMeta) :
    RateSignal.resets.packets cfg pkts = pkts.filter PacketMeta.isReset := by
  induction pkts using List.reverseRecOn with
  | nil => rfl
  | append_singleton pkts pkt ih =>
      have hflag : RateSignal.resets.flag ((Engine.afterPackets cfg pkts).ctx pkt).delta
          = pkt.isReset := update_rst _ _
      rw [RateSignal.packets_concat, ih, hflag, List.filter_append, List.filter_singleton,
        Bool.cond_eq_ite]

/-- Those of the second are the first packets of flows. -/
theorem packets_newFlows (cfg : DetectConfig ℚ) (pkts : List PacketMeta) :
    RateSignal.newFlows.packets cfg pkts = firstPackets cfg pkts := by
  rw [RateSignal.packets, firstPackets]
  apply List.filterMap_congr
  rintro ⟨e, c, out⟩ -
  cases c with
  | process pkt =>
      have hflag : RateSignal.newFlows.flag (e.ctx pkt).delta
          = (e.state.flows.lookup pkt.key).isNone := update_newFlow _ _
      simp only [RateSignal.signalled, hflag, firstOfFlow]
  | sweep now => rfl

/-- **Storms** of `n` packets within less than a second are noticed, with threshold `n`, exactly
if one calendar second holds `n` of the packets: for resets, and for the first packets of
flows. -/
theorem storms_noticed_iff (cfg : DetectConfig ℚ) {pkts : List PacketMeta}
    (hsorted : (pkts.map PacketMeta.tsNanos).Pairwise (· ≤ ·))
    (hts : ∀ pkt ∈ pkts, pkt.tsNanos < 2 ^ 64) :
    (∀ n : ℕ, 1 ≤ n → cfg.rstStormPerSec = n →
      ((Burst n (pkts.filter PacketMeta.isReset) →
          Alarm.rstStorm.emissions (Engine.packetLog cfg pkts) ≠ []) ↔
        (Burst n (pkts.filter PacketMeta.isReset) →
          BurstInSecond n (pkts.filter PacketMeta.isReset)))) ∧
    (∀ n : ℕ, 1 ≤ n → cfg.churnPerSec = n →
      ((Burst n (firstPackets cfg pkts) →
          Alarm.churn.emissions (Engine.packetLog cfg pkts) ≠ []) ↔
        (Burst n (firstPackets cfg pkts) → BurstInSecond n (firstPackets cfg pkts)))) := by
  constructor
  · intro n hn hthreshold
    have hraised := RateSignal.resets.raised_iff cfg hn hthreshold hsorted hts
    rw [packets_resets] at hraised
    exact imp_congr_right fun _ => hraised
  · intro n hn hthreshold
    have hraised := RateSignal.newFlows.raised_iff cfg hn hthreshold hsorted hts
    rw [packets_newFlows] at hraised
    exact imp_congr_right fun _ => hraised

namespace Sample

/-- The default thresholds, with a storm from two resets per second on. -/
def twoResets : DetectConfig ℚ := { DetectConfig.default ℚ with rstStormPerSec := 2 }

/-- A reset at the time `t` and another 1 ns later. -/
def resetPair (t : ℕ) : List PacketMeta :=
  [tcp t (ep 1 5000) (ep 2 80) TcpFlags.RST 1 0 0 0,
    tcp (t + 1) (ep 1 5001) (ep 2 80) TcpFlags.RST 1 0 0 0]

end Sample

/-- Two resets 1 ns apart, on either side of the first second's end, go by unnoticed. -/
theorem resetPair_unnoticed :
    Burst 2 ((Sample.resetPair 999999999).filter PacketMeta.isReset) ∧
      ¬ Alarm.rstStorm.emissions
        (Engine.packetLog Sample.twoResets (Sample.resetPair 999999999)) ≠ [] := by
  refine ⟨⟨_, List.Sublist.refl _, by decide, by decide⟩, not_not.2 ?_⟩
  decide +kernel

/-- Two resets in one second are noticed. -/
theorem resetPair_noticed :
    Alarm.rstStorm.emissions (Engine.packetLog Sample.twoResets (Sample.resetPair 5)) ≠ [] := by
  have hsorted : ((Sample.resetPair 5).map PacketMeta.tsNanos).Pairwise (· ≤ ·) := by decide
  have hiff := (storms_noticed_iff Sample.twoResets hsorted (by decide)).1 2 (by decide) rfl
  refine hiff.2 (fun _ => ?_) ?_
  · exact ⟨_, List.Sublist.refl _, by decide, by decide⟩
  · exact ⟨_, List.Sublist.refl _, by decide, by decide⟩
