/-
# Sweeping again

What a sweep does to a flow only grows with time: a flow idle at one time is idle later, and
a SYN that has waited too long still has.  So an earlier sweep leaves nothing behind that a
later one would not (`sweep_sweep`), and a second sweep at the same time finds
nothing (`sweep_again`).  Nor does it matter in which order the table is visited
(`SameTables.sweep`).

The reports are another matter.  A flow that the earlier sweep evicts before its SYN has
timed out is never reported, and whether there is such a flow is a question about the two
durations in nanoseconds (`sweepRepeats_iff`).
-/
import L4Scope.DetectorChain
import L4Scope.HandshakeTimeout
import L4Scope.RenamedRuns

variable {F : Type}

/-! ## One flow, two sweeps -/

namespace FlowState

variable {f : FlowState} {ttl hto t₁ t₂ : ℕ}

/-- A flow that is idle stays so. -/
theorem idle_mono (hle : t₁ ≤ t₂) (h : f.idle ttl t₁ = true) : f.idle ttl t₂ = true := by
  rw [idle, decide_eq_true_eq] at h ⊢
  omega

/-- A SYN that has timed out stays so. -/
theorem timedOut_mono (hle : t₁ ≤ t₂) (h : f.timedOut hto t₁ = true) :
    f.timedOut hto t₂ = true := by
  rw [timedOut_iff] at h ⊢
  obtain ⟨hstate, hflag, t, ht, hlt⟩ := h
  exact ⟨hstate, hflag, t, ht, by omega⟩

/-- A flagged flow does not time out again. -/
theorem timedOut_flagged (f : FlowState) (hto now : ℕ) : f.flagged.timedOut hto now = false := by
  rw [Bool.eq_false_iff, Ne, timedOut_iff]
  rintro ⟨-, hflag, -⟩
  cases hflag

theorem idle_flagged (f : FlowState) (ttl now : ℕ) : f.flagged.idle ttl now = f.idle ttl now := rfl

end FlowState

/-- A flow treated by two sweeps is as the later one leaves it. -/
theorem sweepFlow_sweepFlow (cfg : DetectConfig F) {t₁ t₂ : ℕ} (hle : t₁ ≤ t₂) (f : FlowState) :
    (sweepFlow cfg t₁ f).bind (sweepFlow cfg t₂) = sweepFlow cfg t₂ f := by
  rw [sweepFlow]
  by_cases hidle : f.idle (secsToNanos cfg.flowTtlSecs) t₁ = true
  · rw [if_pos hidle, sweepFlow, if_pos (FlowState.idle_mono hle hidle)]
    rfl
  rw [if_neg hidle]
  by_cases hout : f.timedOut (secsToNanos cfg.handshakeTimeoutSecs) t₁ = true
  · -- flagged by the first sweep, and it would be by the second
    rw [if_pos hout, Option.bind_some, sweepFlow, sweepFlow, FlowState.idle_flagged,
      FlowState.timedOut_flagged, FlowState.timedOut_mono hle hout]
    rfl
  · rw [if_neg hout]
    rfl

/-- What a sweep leaves of a flow is neither idle nor timed out. -/
theorem swept_settled {cfg : DetectConfig F} {now : ℕ} {f f' : FlowState}
    (h : sweepFlow cfg now f = some f') :
    f'.idle (secsToNanos cfg.flowTtlSecs) now = false ∧
      f'.timedOut (secsToNanos cfg.handshakeTimeoutSecs) now = false := by
  rw [sweepFlow] at h
  split_ifs at h with hidle hout
  · rw [← Option.some.inj h, FlowState.idle_flagged]
    exact ⟨by simpa using hidle, FlowState.timedOut_flagged _ _ _⟩
  · rw [← Option.some.inj h]
    exact ⟨by simpa using hidle, by simpa using hout⟩

/-! ## The whole table -/

namespace EngineState

variable {s t : EngineState F}

/-- The first state is an arrangement of the second. -/
theorem SameTables.symm (h : s.SameTables t) : t.SameTables s :=
  ⟨h.cfg.symm, fun k => (h.flows k).symm, h.rstRate.symm, h.newFlowRate.symm,
    fun ep => (h.halfOpen ep).symm⟩

/-- As many flows count for a service. -/
theorem SameTables.halfOpenFlows (h : s.SameTables t) (ep : Endpoint) :
    t.halfOpenFlows ep = s.halfOpenFlows ep :=
  Table.count_congr _ h.flows

/-- Two ways to lower a counter from one value, with the same flows before and after, end with
the same value. -/
theorem Lowers.lookup_eq {ep : Endpoint} {s s' t t' : EngineState F} (h : Lowers ep s t)
    (h' : Lowers ep s' t') (hstart : s'.globals.halfOpen.lookup ep = s.globals.halfOpen.lookup ep)
    (hflows : s'.halfOpenFlows ep = s.halfOpenFlows ep)
    (hflows' : t'.halfOpenFlows ep = t.halfOpenFlows ep) :
    t'.globals.halfOpen.lookup ep = t.globals.halfOpen.lookup ep := by
  rw [h.lookup, h'.lookup, hstart, hflows, hflows']

variable [F64 F]

/-- A sweep does the same to every flow. -/
theorem SameTables.lookup_sweep (h : s.SameTables t) (now : ℕ) (k : FlowKey) :
    (t.sweep now).1.flows.lookup k = (s.sweep now).1.flows.lookup k := by
  rw [EngineState.lookup_sweep, EngineState.lookup_sweep, h.cfg, h.flows]

/-- **The order of the table does not matter** for the state a sweep leaves. -/
theorem SameTables.sweep (h : s.SameTables t) (now : ℕ) :
    (s.sweep now).1.SameTables (t.sweep now).1 where
  cfg := by rw [sweep_cfg, sweep_cfg, h.cfg]
  flows := h.lookup_sweep now
  rstRate := by rw [(sweep_rates t now).1, (sweep_rates s now).1, h.rstRate]
  newFlowRate := by rw [(sweep_rates t now).2, (sweep_rates s now).2, h.newFlowRate]
  halfOpen ep := (lowers_sweep ep s now).lookup_eq (lowers_sweep ep t now) (h.halfOpen ep)
    (h.halfOpenFlows ep) (Table.count_congr _ (h.lookup_sweep now))

/-- Nor for the events, up to their order. -/
theorem SameTables.sweep_events (h : s.SameTables t) (now : ℕ) :
    (t.sweep now).2.Perm (s.sweep now).2 := by
  rw [EngineState.sweep_events, EngineState.sweep_events, h.cfg]
  exact ((Table.entries_perm h.flows).filter _).map _

/-- A later sweep does what an earlier one has done too. -/
theorem lookup_sweep_sweep (s : EngineState F) {t₁ t₂ : ℕ} (hle : t₁ ≤ t₂) (k : FlowKey) :
    ((s.sweep t₁).1.sweep t₂).1.flows.lookup k = (s.sweep t₂).1.flows.lookup k := by
  rw [lookup_sweep, lookup_sweep, lookup_sweep, sweep_cfg]
  cases s.flows.lookup k with
  | none => rfl
  | some f => exact sweepFlow_sweepFlow s.cfg hle f

/-- **An earlier sweep changes nothing** about what a later one leaves. -/
theorem sweep_sweep (s : EngineState F) {t₁ t₂ : ℕ} (hle : t₁ ≤ t₂) :
    (s.sweep t₂).1.SameTables ((s.sweep t₁).1.sweep t₂).1 where
  cfg := by rw [sweep_cfg, sweep_cfg, sweep_cfg]
  flows := lookup_sweep_sweep s hle
  rstRate := by rw [(sweep_rates _ t₂).1, (sweep_rates s t₁).1, (sweep_rates s t₂).1]
  newFlowRate := by rw [(sweep_rates _ t₂).2, (sweep_rates s t₁).2, (sweep_rates s t₂).2]
  halfOpen ep := by
    have htwice := (lowers_sweep ep s t₁).trans (lowers_sweep ep (s.sweep t₁).1 t₂)
    exact (lowers_sweep ep s t₂).lookup_eq htwice rfl rfl
      (Table.count_congr _ (lookup_sweep_sweep s hle))

/-- A sweep leaves no flow with a property that no swept flow has. -/
theorem selected_sweep {p : FlowState → Bool} {s : EngineState F} {now : ℕ}
    (hp : ∀ f f', sweepFlow s.cfg now f = some f' → p f' = false) :
    selected p (s.sweep now).1.flows = [] := by
  rw [List.eq_nil_iff_forall_not_mem]
  intro k hk
  obtain ⟨f', hf', hpf⟩ := mem_selected.1 hk
  obtain ⟨f, -, hswept⟩ := lookup_swept hf'
  rw [hp f f' hswept] at hpf
  cases hpf

/-- **A second sweep at the same time** does nothing and reports nothing. -/
theorem sweep_again (s : EngineState F) (now : ℕ) :
    (s.sweep now).1.sweep now = ((s.sweep now).1, []) := by
  rw [sweep_eq (s.sweep now).1, sweep_cfg]
  dsimp only
  rw [selected_sweep fun f f' h => (swept_settled h).2,
    selected_sweep fun f f' h => (swept_settled h).1]
  rfl

/-! ## The reports -/

/-- The flows a sweep reports, in its order. -/
def timeoutKeys (s : EngineState F) (now : ℕ) : List FlowKey :=
  (s.sweep now).2.map L4Event.key

/-- The keys that a sweep reports. -/
theorem timeoutKeys_eq (s : EngineState F) (now : ℕ) : s.timeoutKeys now
    = selected (FlowState.timedOut (secsToNanos s.cfg.handshakeTimeoutSecs) now) s.flows := by
  rw [timeoutKeys, sweep_events, List.map_map, selected]
  rfl

/-- They are those of the flows that have timed out. -/
theorem mem_timeoutKeys {s : EngineState F} {now : ℕ} {k : FlowKey} :
    k ∈ s.timeoutKeys now ↔ ∃ f, s.flows.lookup k = some f ∧
      f.timedOut (secsToNanos s.cfg.handshakeTimeoutSecs) now = true := by
  rw [timeoutKeys_eq, mem_selected]

/-- None is reported twice. -/
theorem timeoutKeys_nodup (s : EngineState F) (now : ℕ) : (s.timeoutKeys now).Nodup := by
  rw [timeoutKeys_eq]
  exact selected_nodup _ _

/-- What the later of two sweeps still reports: the flows that had not timed out at the
earlier one, and were not evicted by it. -/
theorem mem_timeoutKeys_sweep {s : EngineState F} {t₁ t₂ : ℕ} {k : FlowKey} :
    k ∈ (s.sweep t₁).1.timeoutKeys t₂ ↔ ∃ f, s.flows.lookup k = some f ∧
      f.idle (secsToNanos s.cfg.flowTtlSecs) t₁ = false ∧
      f.timedOut (secsToNanos s.cfg.handshakeTimeoutSecs) t₁ = false ∧
      f.timedOut (secsToNanos s.cfg.handshakeTimeoutSecs) t₂ = true := by
  rw [mem_timeoutKeys, sweep_cfg, lookup_sweep]
  cases s.flows.lookup k with
  | none => simp
  | some f =>
      rw [Option.bind_some, sweepFlow]
      by_cases hidle : f.idle (secsToNanos s.cfg.flowTtlSecs) t₁ = true
      · simp [hidle]
      by_cases hout : f.timedOut (secsToNanos s.cfg.handshakeTimeoutSecs) t₁ = true
      · simp [hidle, hout, FlowState.timedOut_flagged]
      · simp [hidle, hout]

/-- No flow is reported by both sweeps. -/
theorem timeoutKeys_append_nodup (s : EngineState F) (t₁ t₂ : ℕ) :
    (s.timeoutKeys t₁ ++ (s.sweep t₁).1.timeoutKeys t₂).Nodup := by
  rw [List.nodup_append]
  refine ⟨timeoutKeys_nodup _ _, timeoutKeys_nodup _ _, ?_⟩
  rintro k hk _ hk' rfl
  obtain ⟨f, hf, hout⟩ := mem_timeoutKeys.1 hk
  obtain ⟨f', hf', -, hnot, -⟩ := mem_timeoutKeys_sweep.1 hk'
  rw [← Option.some.inj (hf.symm.trans hf'), hout] at hnot
  cases hnot

/-- **The two sweeps report what the later one would**, provided no SYN times out in a flow
that the earlier sweep evicts. -/
theorem timeoutKeys_perm {s : EngineState F} {t₁ t₂ : ℕ} (hle : t₁ ≤ t₂)
    (hkeep : ∀ k f, s.flows.lookup k = some f →
      f.idle (secsToNanos s.cfg.flowTtlSecs) t₁ = true →
        f.timedOut (secsToNanos s.cfg.handshakeTimeoutSecs) t₂ = true →
          f.timedOut (secsToNanos s.cfg.handshakeTimeoutSecs) t₁ = true) :
    (s.timeoutKeys t₁ ++ (s.sweep t₁).1.timeoutKeys t₂).Perm (s.timeoutKeys t₂) := by
  rw [List.perm_ext_iff_of_nodup (timeoutKeys_append_nodup s t₁ t₂) (timeoutKeys_nodup s t₂)]
  intro k
  rw [List.mem_append, mem_timeoutKeys, mem_timeoutKeys_sweep, mem_timeoutKeys]
  constructor
  · rintro (⟨f, hf, hout⟩ | ⟨f, hf, -, -, hout⟩)
    · exact ⟨f, hf, FlowState.timedOut_mono hle hout⟩
    · exact ⟨f, hf, hout⟩
  · rintro ⟨f, hf, hout⟩
    by_cases hearly : f.timedOut (secsToNanos s.cfg.handshakeTimeoutSecs) t₁ = true
    · exact Or.inl ⟨f, hf, hearly⟩
    · have hidle := mt (fun hidle => hkeep k f hf hidle hout) hearly
      exact Or.inr ⟨f, hf, by simpa using hidle, by simpa using hearly, hout⟩

end EngineState

/-! ## The engine -/

namespace Engine

variable [F64 F]

/-- The same engine, its tables arranged in any way. -/
structure SameTables (e e' : Engine F) : Prop where
  state : e.state.SameTables e'.state
  detectors : e'.detectors = e.detectors
  lastSweepNs : e'.lastSweepNs = e.lastSweepNs
  sweepIntervalNs : e'.sweepIntervalNs = e.sweepIntervalNs

/-- Sweeping at `t₁` before `t₂` is of no consequence to the engine, sweeping twice at `t₁`
neither, and the order of the table matters to no sweep. -/
structure SweepsRepeat (e : Engine F) (t₁ t₂ : ℕ) : Prop where
  state : (e.sweep t₂).1.SameTables ((e.sweep t₁).1.sweep t₂).1
  again : (e.sweep t₁).1.sweep t₁ = ((e.sweep t₁).1, [])
  order : ∀ e', e.SameTables e' →
    (e.sweep t₁).1.SameTables (e'.sweep t₁).1 ∧ (e'.sweep t₁).2.Perm (e.sweep t₁).2

/-- The flows whose timeout the events report. -/
def timedOutKeys (events : List (L4Event F)) : List FlowKey :=
  (alerts .handshakeTimeout events).map L4Event.key

/-- The sweeps at `t₁` and `t₂` report the timeouts that the one at `t₂` would, each once. -/
def SameReports (e : Engine F) (t₁ t₂ : ℕ) : Prop :=
  let pair := (e.sweep t₁).2 ++ ((e.sweep t₁).1.sweep t₂).2
  (timedOutKeys pair).Perm (timedOutKeys (e.sweep t₂).2) ∧ (timedOutKeys pair).Nodup

/-- The reports are about these keys. -/
theorem timedOutKeys_sweep (s : EngineState F) (now : ℕ) :
    timedOutKeys (s.sweep now).2 = s.timeoutKeys now := by
  have hall : alerts .handshakeTimeout (s.sweep now).2 = (s.sweep now).2 := by
    rw [alerts, List.filter_eq_self]
    intro ev hev
    obtain ⟨k, f, -, -, rfl⟩ := EngineState.mem_sweep_events.1 hev
    rfl
  rw [timedOutKeys, hall, EngineState.timeoutKeys]

/-- The reports of two sweeps. -/
theorem timedOutKeys_pair (e : Engine F) (t₁ t₂ : ℕ) :
    timedOutKeys ((e.sweep t₁).2 ++ ((e.sweep t₁).1.sweep t₂).2)
      = e.state.timeoutKeys t₁ ++ (e.state.sweep t₁).1.timeoutKeys t₂ := by
  have happ : timedOutKeys ((e.sweep t₁).2 ++ ((e.sweep t₁).1.sweep t₂).2)
      = timedOutKeys (e.sweep t₁).2 ++ timedOutKeys ((e.sweep t₁).1.sweep t₂).2 := by
    rw [timedOutKeys, alerts, List.filter_append, List.map_append]
    rfl
  rw [happ]
  exact congrArg₂ (· ++ ·) (timedOutKeys_sweep _ _) (timedOutKeys_sweep _ _)

/-- Two sweeps report the same as the later one, as a matter of keys. -/
theorem sameReports_iff (e : Engine F) (t₁ t₂ : ℕ) : e.SameReports t₁ t₂ ↔
    (e.state.timeoutKeys t₁ ++ (e.state.sweep t₁).1.timeoutKeys t₂).Perm
      (e.state.timeoutKeys t₂) := by
  have hlater : timedOutKeys (e.sweep t₂).2 = e.state.timeoutKeys t₂ := timedOutKeys_sweep _ t₂
  rw [SameReports, timedOutKeys_pair, hlater,
    and_iff_left (EngineState.timeoutKeys_append_nodup e.state t₁ t₂)]

/-- The states agree without condition. -/
theorem sweepsRepeat (e : Engine F) {t₁ t₂ : ℕ} (hle : t₁ ≤ t₂) : e.SweepsRepeat t₁ t₂ where
  state := ⟨EngineState.sweep_sweep e.state hle, rfl, rfl, rfl⟩
  again := by
    have hagain := EngineState.sweep_again e.state t₁
    show ((_ : Engine F), _) = _
    rw [sweep_state, hagain]
    rfl
  order e' h := by
    refine ⟨⟨h.state.sweep t₁, ?_, ?_, ?_⟩, h.state.sweep_events t₁⟩
    · exact h.detectors
    · exact h.lastSweepNs
    · exact h.sweepIntervalNs

end Engine

section Ordered

variable [F64 F]

/-- Of packets taken in order, no flow keeps a SYN later than its last packet. -/
theorem Engine.synTimeNs_le (cfg : DetectConfig F) {calls : List Call}
    (hsorted : (callTimes calls).Pairwise (· ≤ ·)) {k : FlowKey} {f : FlowState}
    (hf : (Engine.machine.after (.new cfg) calls).state.flows.lookup k = some f) {t : ℕ}
    (ht : f.synTimeNs = some t) : t ≤ f.lastSeenNs := by
  rw [Engine.state_after] at hf
  refine (lastSeen_of_run cfg ?_ hf).2 t ht
  rw [Engine.packetTimes_ops]
  exact hsorted

/-- A bare SYN at time 0. -/
def synAtZero : PacketMeta :=
  Sample.tcp 0 (Sample.ep 1 5002) (Sample.ep 2 3306) TcpFlags.SYN 100 0 0 0

/-- After it, its flow waits for the SYN-ACK. -/
theorem lookup_synAtZero (cfg : DetectConfig F) :
    ∃ f, (Engine.machine.after (.new cfg) [.process synAtZero]).state.flows.lookup synAtZero.key
        = some f ∧ f.lastSeenNs = 0 ∧ ∀ hto now, f.timedOut hto now = decide (hto < now) := by
  have hlookup : (Engine.machine.after (.new cfg)
      [.process synAtZero]).state.flows.lookup synAtZero.key
        = some (flowStep synAtZero none).1 := by
    have hnone : (EngineState.new cfg).flows.lookup synAtZero.key = none := AList.lookup_empty _
    have hsweep : ¬ (Engine.new cfg).sweepIntervalNs ≤ synAtZero.tsNanos
        - (Engine.new cfg).lastSweepNs := by
      show ¬ NS_PER_SEC ≤ 0 - 0
      decide
    rw [Machine.after_cons, Machine.after_nil, Engine.step_process, Engine.process_state,
      if_neg hsweep, EngineState.lookup_update, if_pos rfl]
    exact congrArg (fun found => some (flowStep synAtZero found).1) hnone
  exact ⟨_, hlookup, rfl, fun hto now => rfl⟩

/-- Evicted before its SYN has waited long enough, the flow is never reported. -/
theorem not_sameReports_synAtZero {cfg : DetectConfig F}
    (hlt : secsToNanos cfg.flowTtlSecs < secsToNanos cfg.handshakeTimeoutSecs) :
    ¬ (Engine.machine.after (.new cfg) [.process synAtZero]).SameReports
      (secsToNanos cfg.flowTtlSecs + 1) (secsToNanos cfg.handshakeTimeoutSecs + 1) := by
  intro hsame
  obtain ⟨f, hf, hseen, hout⟩ := lookup_synAtZero cfg
  rw [Engine.sameReports_iff] at hsame
  have hreported : synAtZero.key ∈ (Engine.machine.after (.new cfg)
      [.process synAtZero]).state.timeoutKeys (secsToNanos cfg.handshakeTimeoutSecs + 1) := by
    refine EngineState.mem_timeoutKeys.2 ⟨f, hf, ?_⟩
    rw [Engine.cfg_after, hout, decide_eq_true_eq]
    exact Nat.lt_succ_self _
  rcases List.mem_append.1 (hsame.mem_iff.2 hreported) with hfirst | hsecond
  · -- the first sweep is too early for the timeout
    obtain ⟨f', hf', htimed⟩ := EngineState.mem_timeoutKeys.1 hfirst
    rw [Engine.cfg_after, ← Option.some.inj (hf.symm.trans hf'), hout, decide_eq_true_eq] at htimed
    omega
  · -- and evicts the flow before the second
    obtain ⟨f', hf', hidle, -, -⟩ := EngineState.mem_timeoutKeys_sweep.1 hsecond
    rw [Engine.cfg_after, ← Option.some.inj (hf.symm.trans hf'), FlowState.idle, hseen,
      decide_eq_false_iff_not] at hidle
    omega

/-- With a TTL no shorter, a flow that has idled out has been reported. -/
theorem sameReports_of_le {cfg : DetectConfig F} {calls : List Call} {t₁ t₂ : ℕ} (hle : t₁ ≤ t₂)
    (hsorted : (callTimes calls).Pairwise (· ≤ ·))
    (hnanos : secsToNanos cfg.handshakeTimeoutSecs ≤ secsToNanos cfg.flowTtlSecs) :
    (Engine.machine.after (.new cfg) calls).SameReports t₁ t₂ := by
  rw [Engine.sameReports_iff]
  apply EngineState.timeoutKeys_perm hle
  intro k f hf hidle hout
  rw [Engine.cfg_after] at hidle hout ⊢
  rw [FlowState.timedOut_iff] at hout ⊢
  obtain ⟨hstate, hflag, t, ht, -⟩ := hout
  have hseen := Engine.synTimeNs_le cfg hsorted hf ht
  rw [FlowState.idle, decide_eq_true_eq] at hidle
  exact ⟨hstate, hflag, t, ht, by omega⟩

/-- **Sweeping is safe to repeat**, for the state it leaves always, and for the timeouts it
reports exactly if a configuration with a TTL no shorter than the handshake timeout has it no
shorter in nanoseconds either, after the wrap. -/
theorem sweepRepeats_iff (cfg : DetectConfig F) :
    (∀ (calls : List Call) (t₁ t₂ : ℕ), t₁ ≤ t₂ → t₂ < 2 ^ 64 →
      (Engine.machine.after (.new cfg) calls).SweepsRepeat t₁ t₂ ∧
        (cfg.handshakeTimeoutSecs ≤ cfg.flowTtlSecs → (callTimes calls).Pairwise (· ≤ ·) →
          (Engine.machine.after (.new cfg) calls).SameReports t₁ t₂)) ↔
      (cfg.handshakeTimeoutSecs ≤ cfg.flowTtlSecs →
        secsToNanos cfg.handshakeTimeoutSecs ≤ secsToNanos cfg.flowTtlSecs) := by
  constructor
  · intro h hsecs
    by_contra hlt
    have hbound : secsToNanos cfg.handshakeTimeoutSecs + 1 < 2 ^ 64 := by
      rw [secsToNanos, NS_PER_SEC]
      omega
    exact not_sameReports_synAtZero (Nat.lt_of_not_le hlt)
      ((h [.process synAtZero] _ _ (by omega) hbound).2 hsecs (by simp [callTimes]))
  · intro hnanos calls t₁ t₂ hle _
    exact ⟨Engine.sweepsRepeat _ hle, fun hsecs hsorted =>
      sameReports_of_le hle hsorted (hnanos hsecs)⟩

end Ordered

namespace Sample

/-- A TTL of 18446744074 s, which wraps to a third of a second, and a timeout of 3 s. -/
def wrappingTtl : DetectConfig ℚ := { DetectConfig.default ℚ with flowTtlSecs := 18446744074 }

end Sample

/-- With a TTL that wraps, an early sweep swallows the timeout of a SYN. -/
theorem wrappingTtl_swallows :
    ¬ ∀ (calls : List Call) (t₁ t₂ : ℕ), t₁ ≤ t₂ → t₂ < 2 ^ 64 →
      Sample.wrappingTtl.handshakeTimeoutSecs ≤ Sample.wrappingTtl.flowTtlSecs →
        (callTimes calls).Pairwise (· ≤ ·) →
          (Engine.machine.after (.new Sample.wrappingTtl) calls).SameReports t₁ t₂ := by
  intro h
  have hsame := h [.process synAtZero] 1000000000 4000000000 (by decide) (by decide) (by decide)
    (by decide)
  revert hsame
  unfold Engine.SameReports
  decide +kernel
