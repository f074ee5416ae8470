/-
# Host-wide alarms over a run

The three host-wide detectors trigger on a packet and report through a debounce.
`Debounce.Tracks` relates a debounce to the times of all triggers and of all emissions so far;
it is kept by every packet of a run in time order (`Alarm.tracks_run`).  Emissions are a gap
apart unless a trigger at time 0 is followed by another within the gap: 0 is also the
debounce's mark for never having fired (`Alarm.spaced_and_answered_iff`).
-/
import L4Scope.DetectorChain

/-! ## A debounce and what went through it -/

/-- What a debounce remembers of the times at which it was consulted, in order, and of those
at which it was ready. -/
structure Debounce.Tracks (b : Debounce) (gap : ℕ) (triggers emissions : List ℕ) : Prop where
  gap_eq : b.gapNs = gap
  subset : ∀ t ∈ emissions, t ∈ triggers
  le_last : ∀ t ∈ emissions, t ≤ b.lastNs
  last_mem : b.lastNs ≠ 0 → b.lastNs ∈ emissions
  zero_mem : 0 ∈ triggers → 0 ∈ emissions
  fired : emissions = [] → triggers = []
  sorted : triggers.Pairwise (· ≤ ·)
  spaced : emissions.Pairwise (fun t t' => t + gap ≤ t') ↔
    triggers.Pairwise fun t t' => t = 0 → gap ≤ t'

namespace Debounce

/-- The debounce as a case distinction. -/
theorem ready_eq (b : Debounce) (t : ℕ) :
    b.ready t = if b.gapNs ≤ t - b.lastNs ∨ b.lastNs = 0 then ({ b with lastNs := t }, true)
      else (b, false) := rfl

/-- Nothing has passed at the start. -/
theorem tracks_new (gapSecs : ℕ) : (new gapSecs).Tracks (secsToNanos gapSecs) [] [] where
  gap_eq := rfl
  subset := nofun
  le_last := nofun
  last_mem := fun h => absurd rfl h
  zero_mem := nofun
  fired := fun _ => rfl
  sorted := List.Pairwise.nil
  spaced := iff_of_true List.Pairwise.nil List.Pairwise.nil

namespace Tracks

variable {b : Debounce} {gap t : ℕ} {triggers emissions : List ℕ}

/-- A later trigger keeps the order. -/
theorem sorted_concat (h : b.Tracks gap triggers emissions) (hlast : ∀ t' ∈ triggers, t' ≤ t) :
    (triggers ++ [t]).Pairwise (· ≤ ·) := by
  rw [List.pairwise_append]
  refine ⟨h.sorted, List.pairwise_singleton _ _, ?_⟩
  intro t' ht' t'' ht''
  rw [List.mem_singleton.1 ht'']
  exact hlast t' ht'

/-- A later trigger than one at time 0 is a gap after it. -/
theorem gap_le_of_zero (h : b.Tracks gap triggers emissions)
    (hspaced : triggers.Pairwise fun t t' => t = 0 → gap ≤ t') (hzero : 0 ∈ triggers)
    (ht : t ∈ triggers) (hne : t ≠ 0) : gap ≤ t := by
  -- as a symmetric relation, so that the order of the two does not matter
  let R (t t' : ℕ) : Prop := (t = 0 → t' ≠ 0 → gap ≤ t') ∧ (t' = 0 → t ≠ 0 → gap ≤ t)
  have hR : triggers.Pairwise R := by
    refine (h.sorted.and hspaced).imp ?_
    rintro t t' ⟨hle, hgap⟩
    exact ⟨fun h0 _ => hgap h0, fun h0 hne => absurd (by omega) hne⟩
  have hsymm : Std.Symm R := ⟨fun _ _ h => ⟨h.2, h.1⟩⟩
  have hrefl : ∀ t ∈ triggers, R t t := fun _ _ =>
    ⟨fun h0 hne => absurd h0 hne, fun h0 hne => absurd h0 hne⟩
  exact (hR.forall_of_forall hrefl hzero ht).1 rfl hne

/-- A debounce that was ready is consulted once more. -/
theorem ready_of_true (h : b.Tracks gap triggers emissions) (hlast : ∀ t' ∈ triggers, t' ≤ t)
    (hready : gap ≤ t - b.lastNs ∨ b.lastNs = 0) :
    Tracks { b with lastNs := t } gap (triggers ++ [t]) (emissions ++ [t]) where
  gap_eq := h.gap_eq
  subset := by
    intro t' ht'
    rw [List.mem_append] at ht' ⊢
    exact ht'.imp (h.subset t') id
  le_last := by
    intro t' ht'
    rw [List.mem_append, List.mem_singleton] at ht'
    obtain ht' | rfl := ht'
    · exact hlast t' (h.subset t' ht')
    · exact le_refl t'
  last_mem _ := List.mem_append_right _ List.mem_cons_self
  zero_mem := by
    intro hzero
    rw [List.mem_append] at hzero ⊢
    exact hzero.imp h.zero_mem id
  fired := by
    intro hnil
    exact absurd hnil (List.append_ne_nil_of_right_ne_nil _ (List.cons_ne_nil t []))
  sorted := h.sorted_concat hlast
  spaced := by
    -- the new emission is a gap after the others unless one of them was at time 0
    have hnew : (∀ t' ∈ emissions, t' + gap ≤ t) ↔ ∀ t' ∈ triggers, t' = 0 → gap ≤ t := by
      constructor
      · rintro hgap t' ht' rfl
        have hzero := hgap 0 (h.zero_mem ht')
        omega
      · intro hgap t' ht'
        have hle := h.le_last t' ht'
        by_cases hlast0 : b.lastNs = 0
        · have hzero := hgap t' (h.subset t' ht') (by omega)
          omega
        · have hmem := hlast b.lastNs (h.subset _ (h.last_mem hlast0))
          omega
    rw [List.pairwise_append, List.pairwise_append, h.spaced]
    simp only [List.pairwise_singleton, List.mem_singleton, forall_eq, true_and]
    rw [hnew]

/-- A debounce that was not ready is consulted once more. -/
theorem ready_of_false (h : b.Tracks gap triggers emissions) (hlast : ∀ t' ∈ triggers, t' ≤ t)
    (hready : ¬ (gap ≤ t - b.lastNs ∨ b.lastNs = 0)) :
    b.Tracks gap (triggers ++ [t]) emissions where
  gap_eq := h.gap_eq
  subset t' ht' := List.mem_append_left _ (h.subset t' ht')
  le_last := h.le_last
  last_mem := h.last_mem
  zero_mem := by
    intro hzero
    have hmem := hlast b.lastNs (h.subset _ (h.last_mem (by omega)))
    rw [List.mem_append, List.mem_singleton] at hzero
    obtain hzero | rfl := hzero
    · exact h.zero_mem hzero
    · omega
  fired := by
    intro hnil
    have hmem := h.last_mem (by omega)
    rw [hnil] at hmem
    cases hmem
  sorted := h.sorted_concat hlast
  spaced := by
    -- spaced emissions put the last one a gap after time 0, and `t` is no earlier
    have hmem := h.last_mem (by omega)
    have hle := hlast _ (h.subset _ hmem)
    rw [List.pairwise_append, h.spaced]
    simp only [List.pairwise_singleton, List.mem_singleton, forall_eq, true_and, iff_self_and]
    rintro hspaced t' hzero rfl
    have hgap := h.gap_le_of_zero hspaced hzero (h.subset _ hmem) (by omega)
    omega

/-- **One consultation**, no earlier than the others. -/
theorem ready (h : b.Tracks gap triggers emissions) (hlast : ∀ t' ∈ triggers, t' ≤ t) :
    (b.ready t).1.Tracks gap (triggers ++ [t])
      (emissions ++ if (b.ready t).2 then [t] else []) := by
  have hgap := h.gap_eq
  by_cases hready : gap ≤ t - b.lastNs ∨ b.lastNs = 0
  · rw [ready_eq, if_pos (by rwa [hgap])]
    exact h.ready_of_true hlast hready
  · rw [ready_eq, if_neg (by rwa [hgap])]
    simp only [Bool.false_eq_true, if_false, List.append_nil]
    exact h.ready_of_false hlast hready

/-- A debounce that has not emitted within the gap is ready. -/
theorem ready_of_quiet (h : b.Tracks gap triggers emissions)
    (hquiet : ∀ t' ∈ emissions, t' + gap ≤ t) : (b.ready t).2 = true := by
  rw [ready_eq, h.gap_eq, if_pos]
  by_cases hlast : b.lastNs = 0
  · exact Or.inr hlast
  · have hgap := hquiet _ (h.last_mem hlast)
    exact Or.inl (by omega)

end Tracks

end Debounce

/-! ## The host-wide alarms -/

/-- The detectors with a debounce. -/
inductive Alarm where
  | rstStorm
  | synBacklog
  | churn
  deriving DecidableEq

variable {F : Type} [F64 F]

namespace Alarm

/-- The kind of the alarm's events. -/
def kind : Alarm → EventKind
  | rstStorm => .rstStorm
  | synBacklog => .synBacklog
  | churn => .connectionChurn

/-- The debounce of the alarm. -/
def debounce (d : Debounces) : Alarm → Debounce
  | rstStorm => d.rst
  | synBacklog => d.syn
  | churn => d.churn

/-- The packet meets the alarm's condition: a reset, or a new flow, at a rate not below the
threshold, or a half-open count of the flow's service not below the threshold. -/
def trigger (ctx : DetectCtx F) : Alarm → Bool
  | rstStorm =>
    ctx.delta.rst && !F64.lt (ctx.globals.rstRate.perSec ctx.nowNs : F) ctx.cfg.rstStormPerSec
  | synBacklog =>
    match ctx.flow with
    | none => false
    | some flow => ctx.cfg.synBacklogThreshold ≤ ctx.globals.halfOpenFor flow.service
  | churn =>
    ctx.delta.newFlow && !F64.lt (ctx.globals.newFlowRate.perSec ctx.nowNs : F) ctx.cfg.churnPerSec

/-- The detector of the alarm, given its debounce. -/
def detector (b : Debounce) : Alarm → Detector
  | rstStorm => .rstStorm b
  | synBacklog => .synBacklog b
  | churn => .churn b

/-- A sweep raises none of the three alarms. -/
theorem kind_ne_handshakeTimeout (a : Alarm) : a.kind ≠ .handshakeTimeout := by
  cases a <;> decide

/-- The chain has one detector for each alarm. -/
theorem filter_chain (a : Alarm) (d : Debounces) :
    (d.chain.filter fun x => x.kind = a.kind) = [a.detector (a.debounce d)] := by
  cases a <;> rfl

/-- What passes through the debounce: nothing unless the packet triggers the alarm. -/
theorem inspect_eq (a : Alarm) (b : Debounce) (ctx : DetectCtx F) :
    ((a.detector b).inspect ctx).1
        = a.detector (if a.trigger ctx then (b.ready ctx.nowNs).1 else b) ∧
      ((a.detector b).inspect ctx).2.isSome = (a.trigger ctx && (b.ready ctx.nowNs).2) := by
  cases a with
  | rstStorm =>
      cases hrst : ctx.delta.rst with
      | false => simp [detector, Detector.inspect, inspectRstStorm, trigger, hrst]
      | true =>
          cases hlt : F64.lt (ctx.globals.rstRate.perSec ctx.nowNs : F) ctx.cfg.rstStormPerSec <;>
            simp [detector, Detector.inspect, inspectRstStorm, trigger, hrst, hlt, debounced_fst,
              debounced_isSome]
  | churn =>
      cases hnew : ctx.delta.newFlow with
      | false => simp [detector, Detector.inspect, inspectChurn, trigger, hnew]
      | true =>
          cases hlt : F64.lt (ctx.globals.newFlowRate.perSec ctx.nowNs : F) ctx.cfg.churnPerSec <;>
            simp [detector, Detector.inspect, inspectChurn, trigger, hnew, hlt, debounced_fst,
              debounced_isSome]
  | synBacklog =>
      cases hflow : ctx.flow with
      | none => simp [detector, Detector.inspect, inspectSynBacklog, trigger, hflow]
      | some flow =>
          by_cases hbelow : ctx.globals.halfOpenFor flow.service < ctx.cfg.synBacklogThreshold
          · have hnot : ¬ ctx.cfg.synBacklogThreshold ≤ ctx.globals.halfOpenFor flow.service :=
              UInt32.not_le.2 hbelow
            simp [detector, Detector.inspect, inspectSynBacklog, trigger, hflow, hbelow, hnot,
              debounced_fst, debounced_isSome]
          · have hle : ctx.cfg.synBacklogThreshold ≤ ctx.globals.halfOpenFor flow.service :=
              UInt32.not_lt.1 hbelow
            simp [detector, Detector.inspect, inspectSynBacklog, trigger, hflow, hbelow, hle,
              debounced_fst, debounced_isSome]

/-! ## Over a run -/

/-- The time of a packet that triggers the alarm. -/
def triggeredAt (a : Alarm) (e : CallEntry F) : Option ℕ :=
  match e.input with
  | .process pkt => if a.trigger (e.state.ctx pkt) then some pkt.tsNanos else none
  | .sweep _ => none

/-- The times of the packets that trigger the alarm. -/
def triggers (a : Alarm) (log : List (CallEntry F)) : List ℕ := log.filterMap a.triggeredAt

/-- The times of the alarm's events. -/
def emissions (a : Alarm) (log : List (CallEntry F)) : List ℕ :=
  (log.flatMap fun e => Engine.alerts a.kind e.output).map L4Event.tsNanos

end Alarm

/-- The calls of a run over packets. -/
def Engine.packetLog (cfg : DetectConfig F) (pkts : List PacketMeta) : List (CallEntry F) :=
  machine.log (.new cfg) (pkts.map .process)

/-- The engine after a run over packets. -/
def Engine.afterPackets (cfg : DetectConfig F) (pkts : List PacketMeta) : Engine F :=
  machine.after (.new cfg) (pkts.map .process)

namespace Engine

variable (cfg : DetectConfig F) (pkts : List PacketMeta) (pkt : PacketMeta)

/-- One more packet in the log. -/
theorem packetLog_concat : packetLog cfg (pkts ++ [pkt]) = packetLog cfg pkts
    ++ [⟨afterPackets cfg pkts, .process pkt, ((afterPackets cfg pkts).process pkt).2⟩] := by
  rw [packetLog, List.map_append, List.map_singleton, Machine.log_concat]
  rfl

/-- One more packet. -/
theorem afterPackets_concat :
    afterPackets cfg (pkts ++ [pkt]) = ((afterPackets cfg pkts).process pkt).1 := by
  rw [afterPackets, List.map_append, List.map_singleton, Machine.after_concat]
  rfl

end Engine

namespace Alarm

variable (a : Alarm) (cfg : DetectConfig F)

/-- Triggers happen at packets. -/
theorem mem_triggers {pkts : List PacketMeta} {t : ℕ}
    (h : t ∈ a.triggers (Engine.packetLog cfg pkts)) : ∃ pkt ∈ pkts, pkt.tsNanos = t := by
  obtain ⟨e, he, ht⟩ := List.mem_filterMap.1 h
  obtain ⟨pre, post, hcalls, -, -⟩ := (Machine.mem_log _).1 he
  have hmem : e.input ∈ pkts.map Call.process := by
    rw [hcalls]
    exact List.mem_append_right _ List.mem_cons_self
  obtain ⟨pkt, hpkt, hinput⟩ := List.mem_map.1 hmem
  rw [triggeredAt, ← hinput] at ht
  dsimp only at ht
  split_ifs at ht
  exact ⟨pkt, hpkt, Option.some.inj ht⟩

/-- The triggers of a run with one packet more. -/
theorem triggers_concat (pkts : List PacketMeta) (pkt : PacketMeta) :
    a.triggers (Engine.packetLog cfg (pkts ++ [pkt])) = a.triggers (Engine.packetLog cfg pkts)
      ++ if a.trigger ((Engine.afterPackets cfg pkts).ctx pkt) then [pkt.tsNanos] else [] := by
  rw [Engine.packetLog_concat, triggers, List.filterMap_append, ← triggers]
  cases htrigger : a.trigger ((Engine.afterPackets cfg pkts).ctx pkt) <;>
    simp [triggeredAt, htrigger]

/-- The alerts of one packet, given the debounces. -/
theorem emissions_process {e : Engine F} {d : Debounces} (hd : e.detectors = d.chain)
    (pkt : PacketMeta) :
    (Engine.alerts a.kind (e.process pkt).2).map L4Event.tsNanos
      = if a.trigger (e.ctx pkt) && ((a.debounce d).ready pkt.tsNanos).2 then [pkt.tsNanos]
        else [] := by
  have hsome := (a.inspect_eq (a.debounce d) (e.ctx pkt)).2
  have hnow : (e.ctx pkt).nowNs = pkt.tsNanos := rfl
  have hone : (e.detectors.filter fun x => x.kind = a.kind) = [a.detector (a.debounce d)] := by
    rw [hd, a.filter_chain]
  rw [Engine.alerts_process_one a.kind_ne_handshakeTimeout hone]
  rw [hnow] at hsome
  rw [← hsome]
  cases hev : ((a.detector (a.debounce d)).inspect (e.ctx pkt)).2 with
  | none => rfl
  | some ev => exact congrArg (fun t => [t]) (Detector.inspect_emits hev).2.2

/-- The debounce moves on the packets that trigger its alarm. -/
theorem debounce_next (d : Debounces) (ctx : DetectCtx F) : a.debounce (d.next ctx)
    = if a.trigger ctx then ((a.debounce d).ready ctx.nowNs).1 else a.debounce d := by
  have h := (a.inspect_eq (a.debounce d) ctx).1
  cases a with
  | rstStorm => exact Detector.rstStorm.inj h
  | synBacklog => exact Detector.synBacklog.inj h
  | churn => exact Detector.churn.inj h

/-- **The alarm's debounce tracks its triggers and emissions** along every run in time order. -/
theorem tracks_run {pkts : List PacketMeta}
    (hsorted : (pkts.map PacketMeta.tsNanos).Pairwise (· ≤ ·)) :
    ∃ d : Debounces, (Engine.afterPackets cfg pkts).detectors = d.chain ∧
      (a.debounce d).Tracks (secsToNanos cfg.alertDebounceSecs)
        (a.triggers (Engine.packetLog cfg pkts)) (a.emissions (Engine.packetLog cfg pkts)) := by
  induction pkts using List.reverseRecOn with
  | nil =>
      refine ⟨_, defaultDetectors_eq cfg, ?_⟩
      cases a <;> exact Debounce.tracks_new cfg.alertDebounceSecs
  | append_singleton pkts pkt ih =>
      rw [List.map_append, List.pairwise_append] at hsorted
      obtain ⟨hsorted, -, hle⟩ := hsorted
      obtain ⟨d, hd, htracks⟩ := ih hsorted
      have hlast : ∀ t ∈ a.triggers (Engine.packetLog cfg pkts), t ≤ pkt.tsNanos := by
        intro t ht
        obtain ⟨p, hp, rfl⟩ := a.mem_triggers cfg ht
        exact hle _ (List.mem_map_of_mem hp) _ List.mem_cons_self
      refine ⟨d.next ((Engine.afterPackets cfg pkts).ctx pkt), ?_, ?_⟩
      · rw [Engine.afterPackets_concat, Engine.process_detectors, hd, Engine.inspectAll_chain]
      have hemit := a.emissions_process hd pkt
      have hemissions : a.emissions (Engine.packetLog cfg (pkts ++ [pkt]))
          = a.emissions (Engine.packetLog cfg pkts)
            ++ (Engine.alerts a.kind ((Engine.afterPackets cfg pkts).process pkt).2).map
              L4Event.tsNanos := by
        rw [Engine.packetLog_concat, emissions, List.flatMap_append, List.map_append,
          List.flatMap_singleton, ← emissions]
      rw [triggers_concat, hemissions, hemit, debounce_next]
      cases a.trigger ((Engine.afterPackets cfg pkts).ctx pkt) with
      | false => simpa using htracks
      | true => exact htracks.ready hlast

end Alarm

/-! ## The spacing of the events -/

namespace Alarm

variable (a : Alarm) (cfg : DetectConfig F) (pkts : List PacketMeta)

/-- Any two events of the alarm are a gap apart. -/
def Spaced (gap : ℕ) : Prop :=
  (a.emissions (Engine.packetLog cfg pkts)).Pairwise fun t t' => t + gap ≤ t'

/-- A packet that triggers the alarm raises it, unless it was raised within the gap before. -/
def Answered (gap : ℕ) : Prop :=
  ∀ pre pkt post, pkts = pre ++ pkt :: post →
    a.trigger ((Engine.afterPackets cfg pre).ctx pkt) = true →
    (∀ t ∈ a.emissions (Engine.packetLog cfg pre), t + gap ≤ pkt.tsNanos) →
    Engine.alerts a.kind ((Engine.afterPackets cfg pre).process pkt).2 ≠ []

variable {pkts}

/-- Every trigger is answered in time order. -/
theorem answered (hsorted : (pkts.map PacketMeta.tsNanos).Pairwise (· ≤ ·)) :
    a.Answered cfg pkts (secsToNanos cfg.alertDebounceSecs) := by
  rintro pre pkt post rfl htrigger hquiet
  rw [List.map_append, List.pairwise_append] at hsorted
  obtain ⟨d, hd, htracks⟩ := a.tracks_run cfg hsorted.1
  have hemit := a.emissions_process hd pkt
  rw [htrigger, htracks.ready_of_quiet hquiet] at hemit
  intro hnil
  rw [hnil] at hemit
  cases hemit

/-- **Host-wide alerts** are answered, and they are spaced by the debounce exactly if no
trigger at time 0 is followed by another within the gap. -/
theorem spaced_and_answered_iff (hsorted : (pkts.map PacketMeta.tsNanos).Pairwise (· ≤ ·))
    (hgap : NS_PER_SEC * cfg.alertDebounceSecs < 2 ^ 64) :
    (a.Spaced cfg pkts (NS_PER_SEC * cfg.alertDebounceSecs) ∧
        a.Answered cfg pkts (NS_PER_SEC * cfg.alertDebounceSecs)) ↔
      (a.triggers (Engine.packetLog cfg pkts)).Pairwise fun t t' =>
        t = 0 → NS_PER_SEC * cfg.alertDebounceSecs ≤ t' := by
  have hanswered := a.answered cfg hsorted
  obtain ⟨d, -, htracks⟩ := a.tracks_run cfg hsorted
  rw [secsToNanos_eq hgap] at hanswered htracks
  rw [and_iff_left hanswered]
  exact htracks.spaced

end Alarm

namespace Sample

/-- The default thresholds, with an alarm from one new flow per second on. -/
def touchy : DetectConfig ℚ := { DetectConfig.default ℚ with churnPerSec := 1 }

/-- Two new flows, at the time `t` and 1 ns later. -/
def twoFlows (t : ℕ) : List PacketMeta :=
  [tcp t (ep 1 5000) (ep 2 80) 0x02 1 0 100 0, tcp (t + 1) (ep 1 5001) (ep 2 80) 0x02 1 0 100 0]

end Sample

/-- The event at time 0 is forgotten: the next one follows after 1 ns instead of 10 s. -/
theorem twoFlows_zero_not_spaced :
    Alarm.churn.emissions (Engine.packetLog Sample.touchy (Sample.twoFlows 0)) = [0, 1] ∧
      ¬ Alarm.churn.Spaced Sample.touchy (Sample.twoFlows 0)
        (NS_PER_SEC * Sample.touchy.alertDebounceSecs) := by
  have hemit : Alarm.churn.emissions (Engine.packetLog Sample.touchy (Sample.twoFlows 0))
      = [0, 1] := by decide +kernel
  refine ⟨hemit, fun hspaced => ?_⟩
  rw [Alarm.Spaced, hemit] at hspaced
  revert hspaced
  decide

/-- One nanosecond later the second flow is held back. -/
theorem twoFlows_one_spaced :
    Alarm.churn.Spaced Sample.touchy (Sample.twoFlows 1)
        (NS_PER_SEC * Sample.touchy.alertDebounceSecs) ∧
      Alarm.churn.Answered Sample.touchy (Sample.twoFlows 1)
        (NS_PER_SEC * Sample.touchy.alertDebounceSecs) :=
  (Alarm.churn.spaced_and_answered_iff Sample.touchy (by decide) (by decide)).2
    (by decide +kernel)
