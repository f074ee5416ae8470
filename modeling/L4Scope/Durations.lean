/-
# The configured durations

The TTL, the handshake timeout and the debounce gap are configured in seconds and multiplied
into nanoseconds, unchecked.  Up to `MAX_SECS` seconds the product fits 64 bits; a longer
duration wraps to a shorter one.  Then flows are evicted, and timeouts reported, before
their time: `evictsAfter_iff` and `timesOutAfter_iff` say that this happens in some run for
every duration that wraps.
-/
import L4Scope.ConfigLines
import L4Scope.RepeatedSweeps

/-- The longest duration whose nanoseconds fit 64 bits. -/
def MAX_SECS : ℕ := 18446744073

/-- Up to `MAX_SECS` the product does not overflow. -/
theorem mul_nanos_lt_iff (secs : ℕ) : NS_PER_SEC * secs < 2 ^ 64 ↔ secs ≤ MAX_SECS := by
  rw [NS_PER_SEC, MAX_SECS]
  omega

/-- An overflow only makes a duration shorter. -/
theorem secsToNanos_le (secs : ℕ) : secsToNanos secs ≤ NS_PER_SEC * secs := Nat.mod_le _ _

/-- A duration is exact if it does not overflow. -/
theorem secsToNanos_eq_iff (secs : ℕ) :
    secsToNanos secs = NS_PER_SEC * secs ↔ secs ≤ MAX_SECS := by
  rw [← mul_nanos_lt_iff]
  constructor
  · intro h
    rw [← h]
    exact Nat.mod_lt _ (by decide)
  · exact secsToNanos_eq

/-! ## What the sweep of a call sees -/

/-- The time of a call. -/
def Call.time : Call → ℕ
  | .process pkt => pkt.tsNanos
  | .sweep now => now

variable {F : Type}

/-- The flows as a sweep in this call finds them: behind the packet, if there is one. -/
def sweptState (e : Engine F) : Call → EngineState F
  | .process pkt => (e.state.update pkt).1
  | .sweep _ => e.state

variable [F64 F]

namespace Engine

/-- A call ends with its sweep, if it has one. -/
theorem step_state (e : Engine F) (c : Call) :
    (machine.step e c).1.state = sweptState e c ∨
      (machine.step e c).1.state = ((sweptState e c).sweep c.time).1 := by
  cases c with
  | sweep now => exact Or.inr (sweep_state e now)
  | process pkt =>
      rw [step_process, process_state]
      split_ifs
      · exact Or.inr rfl
      · exact Or.inl rfl

/-- A timeout is reported by the sweep of the call. -/
theorem timeout_of_sweep {e : Engine F} {c : Call} {ev : L4Event F}
    (hev : ev ∈ (machine.step e c).2) (hkind : ev.kind = .handshakeTimeout) :
    ev ∈ ((sweptState e c).sweep c.time).2 := by
  cases c with
  | sweep now => exact hev
  | process pkt =>
      rw [step_process, process_events] at hev
      rcases List.mem_append.1 hev with hchain | hsweep
      · -- no detector reports a timeout
        rw [inspectAll, List.mem_filterMap] at hchain
        obtain ⟨r, hr, hsome⟩ := hchain
        obtain ⟨d, -, rfl⟩ := List.mem_map.1 hr
        have hd := (Detector.inspect_emits hsome).1.symm.trans hkind
        cases d <;> cases hd
      · split_ifs at hsweep
        · exact hsweep
        · cases hsweep

end Engine

/-! ## Durations kept -/

/-- No call of a run evicts a flow that was seen within the last `ns` nanoseconds. -/
def EvictsAfter (cfg : DetectConfig F) (ns : ℕ) : Prop :=
  ∀ calls, ∀ c ∈ Engine.machine.log (.new cfg) calls, ∀ k f,
    (sweptState c.state c.input).flows.lookup k = some f →
      (Engine.machine.step c.state c.input).1.state.flows.lookup k = none →
        ns < c.input.time - f.lastSeenNs

/-- No call of a run reports a SYN that has not waited for more than `ns` nanoseconds. -/
def TimesOutAfter (cfg : DetectConfig F) (ns : ℕ) : Prop :=
  ∀ calls, ∀ c ∈ Engine.machine.log (.new cfg) calls, ∀ ev ∈ c.output,
    ev.kind = .handshakeTimeout →
      ∃ f t, (sweptState c.state c.input).flows.lookup ev.key = some f ∧
        f.synTimeNs = some t ∧ ns < c.input.time - t

/-- The durations in nanoseconds are those configured: the products do not overflow and no run
acts before its time. -/
structure Honours (cfg : DetectConfig F) : Prop where
  ttl : secsToNanos cfg.flowTtlSecs = NS_PER_SEC * cfg.flowTtlSecs
  timeout : secsToNanos cfg.handshakeTimeoutSecs = NS_PER_SEC * cfg.handshakeTimeoutSecs
  gap : (Debounce.new cfg.alertDebounceSecs).gapNs = NS_PER_SEC * cfg.alertDebounceSecs
  noOverflow : NS_PER_SEC * cfg.flowTtlSecs < 2 ^ 64 ∧
    NS_PER_SEC * cfg.handshakeTimeoutSecs < 2 ^ 64 ∧
      NS_PER_SEC * cfg.alertDebounceSecs < 2 ^ 64
  evicts : EvictsAfter cfg (NS_PER_SEC * cfg.flowTtlSecs)
  timesOut : TimesOutAfter cfg (NS_PER_SEC * cfg.handshakeTimeoutSecs)

section Kept

variable (cfg : DetectConfig F)

/-- The configuration never changes. -/
theorem sweptState_cfg {calls : List Call} {c : CallEntry F}
    (hc : c ∈ Engine.machine.log (.new cfg) calls) : (sweptState c.state c.input).cfg = cfg := by
  obtain ⟨pre, post, -, hstate, -⟩ := (Machine.mem_log _).1 hc
  have hcfg : c.state.state.cfg = cfg := by
    rw [hstate, Engine.cfg_after]
  obtain ⟨e, call, out⟩ := c
  cases call with
  | process pkt => exact hcfg
  | sweep now => exact hcfg

/-- Flows are kept for the TTL in nanoseconds, whatever it is. -/
theorem evictsAfter_nanos : EvictsAfter cfg (secsToNanos cfg.flowTtlSecs) := by
  intro calls c hc k f hf hgone
  have hcfg := sweptState_cfg cfg hc
  rcases Engine.step_state c.state c.input with hkept | hswept
  · rw [hkept, hf] at hgone
    cases hgone
  · rw [hswept, EngineState.lookup_sweep, hf, Option.bind_some, sweepFlow, hcfg] at hgone
    split_ifs at hgone with hidle
    exact of_decide_eq_true hidle

/-- SYNs are reported after the timeout in nanoseconds, whatever it is. -/
theorem timesOutAfter_nanos : TimesOutAfter cfg (secsToNanos cfg.handshakeTimeoutSecs) := by
  intro calls c hc ev hev hkind
  have hcfg := sweptState_cfg cfg hc
  obtain ⟨pre, post, -, -, hout⟩ := (Machine.mem_log _).1 hc
  rw [hout] at hev
  obtain ⟨k, f, hf, htimed, rfl⟩ :=
    EngineState.mem_sweep_events.1 (Engine.timeout_of_sweep hev hkind)
  rw [hcfg, FlowState.timedOut_iff] at htimed
  obtain ⟨-, -, t, ht, hlt⟩ := htimed
  exact ⟨f, t, hf, ht, hlt⟩

/-- The sweep of the run of one SYN at time 0. -/
theorem mem_log_synAtZero (now : ℕ) :
    (⟨Engine.machine.after (.new cfg) [.process synAtZero], .sweep now,
      ((Engine.machine.after (.new cfg) [.process synAtZero]).sweep now).2⟩ : CallEntry F)
      ∈ Engine.machine.log (.new cfg) [.process synAtZero, .sweep now] :=
  (Machine.mem_log _).2 ⟨[.process synAtZero], [], rfl, rfl, rfl⟩

/-- **Flows are kept for the configured TTL** exactly if its nanoseconds fit. -/
theorem evictsAfter_iff :
    EvictsAfter cfg (NS_PER_SEC * cfg.flowTtlSecs) ↔ cfg.flowTtlSecs ≤ MAX_SECS := by
  constructor
  · intro h
    rw [← secsToNanos_eq_iff]
    -- a flow not seen for just over the wrapped TTL
    obtain ⟨f, hf, hseen, -⟩ := lookup_synAtZero cfg
    have hmem := mem_log_synAtZero cfg (secsToNanos cfg.flowTtlSecs + 1)
    have hcfg : (Engine.machine.after (.new cfg) [.process synAtZero]).state.cfg = cfg :=
      sweptState_cfg cfg hmem
    have hidle : f.idle (secsToNanos cfg.flowTtlSecs) (secsToNanos cfg.flowTtlSecs + 1) = true := by
      rw [FlowState.idle, hseen]
      exact decide_eq_true (Nat.lt_succ_self _)
    have hgone : ((Engine.machine.after (.new cfg) [.process synAtZero]).sweep
        (secsToNanos cfg.flowTtlSecs + 1)).1.state.flows.lookup synAtZero.key = none := by
      rw [Engine.sweep_state, EngineState.lookup_sweep, hf, Option.bind_some, sweepFlow, hcfg,
        if_pos hidle]
    have hlt : NS_PER_SEC * cfg.flowTtlSecs < secsToNanos cfg.flowTtlSecs + 1 - f.lastSeenNs :=
      h _ _ hmem synAtZero.key f hf hgone
    rw [hseen] at hlt
    have hle := secsToNanos_le cfg.flowTtlSecs
    omega
  · intro h
    rw [← (secsToNanos_eq_iff _).2 h]
    exact evictsAfter_nanos cfg

/-- **Timeouts are reported after the configured time** exactly if its nanoseconds fit. -/
theorem timesOutAfter_iff :
    TimesOutAfter cfg (NS_PER_SEC * cfg.handshakeTimeoutSecs)
      ↔ cfg.handshakeTimeoutSecs ≤ MAX_SECS := by
  constructor
  · intro h
    rw [← secsToNanos_eq_iff]
    obtain ⟨f, hf, -, htimed⟩ := lookup_synAtZero cfg
    have hmem := mem_log_synAtZero cfg (secsToNanos cfg.handshakeTimeoutSecs + 1)
    have hcfg : (Engine.machine.after (.new cfg) [.process synAtZero]).state.cfg = cfg :=
      sweptState_cfg cfg hmem
    have hev : timeoutEvent (secsToNanos cfg.handshakeTimeoutSecs + 1) synAtZero.key f
        ∈ ((Engine.machine.after (.new cfg) [.process synAtZero]).sweep
          (secsToNanos cfg.handshakeTimeoutSecs + 1)).2 := by
      refine EngineState.mem_sweep_events.2 ⟨_, f, hf, ?_, rfl⟩
      rw [hcfg, htimed]
      exact decide_eq_true (Nat.lt_succ_self _)
    obtain ⟨f', t, -, -, hlt⟩ := h _ _ hmem _ hev rfl
    have hlt : NS_PER_SEC * cfg.handshakeTimeoutSecs
        < secsToNanos cfg.handshakeTimeoutSecs + 1 - t := hlt
    have hle := secsToNanos_le cfg.handshakeTimeoutSecs
    omega
  · intro h
    rw [← (secsToNanos_eq_iff _).2 h]
    exact timesOutAfter_nanos cfg

end Kept

/-- The durations are honoured exactly if the three of them fit. -/
theorem honours_iff (cfg : DetectConfig F) : Honours cfg ↔ cfg.flowTtlSecs ≤ MAX_SECS ∧
    cfg.handshakeTimeoutSecs ≤ MAX_SECS ∧ cfg.alertDebounceSecs ≤ MAX_SECS := by
  constructor
  · intro h
    exact ⟨(secsToNanos_eq_iff _).1 h.ttl, (secsToNanos_eq_iff _).1 h.timeout,
      (secsToNanos_eq_iff _).1 h.gap⟩
  · rintro ⟨httl, htimeout, hgap⟩
    exact
      { ttl := (secsToNanos_eq_iff _).2 httl
        timeout := (secsToNanos_eq_iff _).2 htimeout
        gap := (secsToNanos_eq_iff _).2 hgap
        noOverflow := ⟨(mul_nanos_lt_iff _).2 httl, (mul_nanos_lt_iff _).2 htimeout,
          (mul_nanos_lt_iff _).2 hgap⟩
        evicts := (evictsAfter_iff cfg).2 httl
        timesOut := (timesOutAfter_iff cfg).2 htimeout }

/-- **The durations of an accepted text** are 64-bit numbers of seconds, and they are honoured
exactly if none exceeds `MAX_SECS`.  One that does breaks its promise in some run, whatever the
others are. -/
theorem fromStr_honours_iff (parseF64 : List Char → Option F) {text : List Char} {cfg : Config F}
    (h : fromStr parseF64 text = .ok cfg) :
    cfg.Fits ∧
    (Honours cfg.detect ↔ cfg.detect.flowTtlSecs ≤ MAX_SECS ∧
      cfg.detect.handshakeTimeoutSecs ≤ MAX_SECS ∧ cfg.detect.alertDebounceSecs ≤ MAX_SECS) ∧
    (EvictsAfter cfg.detect (NS_PER_SEC * cfg.detect.flowTtlSecs) ↔
      cfg.detect.flowTtlSecs ≤ MAX_SECS) ∧
    (TimesOutAfter cfg.detect (NS_PER_SEC * cfg.detect.handshakeTimeoutSecs) ↔
      cfg.detect.handshakeTimeoutSecs ≤ MAX_SECS) :=
  ⟨fromStr_fits h, honours_iff cfg.detect, evictsAfter_iff cfg.detect, timesOutAfter_iff cfg.detect⟩

namespace Sample

/-- A TTL of `secs` seconds. -/
def ttlText (secs : String) : List Char := ("[detect]\nflow_ttl_secs = " ++ secs).toList

/-- The default configuration with another time to live. -/
def ttlConfig (secs : ℕ) : Config ℚ :=
  { Config.default ℚ with detect.flowTtlSecs := secs }

end Sample

/-- A TTL of 585 years is accepted, and evicts a flow after a second. -/
theorem ttlText_wraps :
    ¬ ∀ (text : List Char) (cfg : Config ℚ), fromStr (fun _ => none) text = .ok cfg →
      Honours cfg.detect := by
  intro h
  have hparse : fromStr (fun _ => none) (Sample.ttlText "18446744074")
      = .ok (Sample.ttlConfig 18446744074) := rfl
  obtain ⟨f, hf, hseen, -⟩ := lookup_synAtZero (Sample.ttlConfig 18446744074).detect
  have hgone : ((Engine.machine.after (.new (Sample.ttlConfig 18446744074).detect)
      [.process synAtZero]).sweep NS_PER_SEC).1.state.flows.lookup synAtZero.key = none := by
    decide +kernel
  have hlt : NS_PER_SEC * 18446744074 < NS_PER_SEC - f.lastSeenNs :=
    (h _ _ hparse).evicts _ _ (mem_log_synAtZero _ NS_PER_SEC) synAtZero.key f hf hgone
  rw [hseen] at hlt
  exact absurd hlt (by decide)

/-- The longest TTL that is honoured. -/
theorem ttlText_honoured :
    fromStr (fun _ => none) (Sample.ttlText "18446744073") = .ok (Sample.ttlConfig 18446744073) ∧
      Honours (Sample.ttlConfig 18446744073).detect := by
  have hparse : fromStr (fun _ => none) (Sample.ttlText "18446744073")
      = .ok (Sample.ttlConfig 18446744073) := rfl
  exact ⟨hparse, (fromStr_honours_iff _ hparse).2.1.2 (by decide)⟩
