/-
# Flows that are not evicted

A run keeps a flow if no call takes it out of the table (`Keeps`).  What such a run
makes of a part of the flow is a fold over the packets of the flow that touch the part, for
every part that sweeps leave alone (`Engine.kept_fold`).  An alert that depends on a packet's
place among equal ones is then a map over their blocks (`Engine.blockMap_run`).
-/
import L4Scope.DetectorChain
import L4Scope.Blocks

variable {F : Type} [F64 F]

/-! ## Parts of a kept flow -/

/-- No call of the log evicts the flow. -/
def Keeps (k : FlowKey) (log : List (CallEntry F)) : Prop :=
  ∀ e ∈ log, (e.state.state.flows.lookup k).isSome →
    ((Engine.machine.step e.state e.input).1.state.flows.lookup k).isSome

/-- What a packet of the flow adds to a part of it: a record that depends on the packet and on
what the table holds. -/
def recordOn {J : Type} (k : FlowKey) (record : PacketMeta → Option FlowState → Option J)
    (e : CallEntry F) : Option J :=
  match e.input with
  | .process pkt => if pkt.key = k then record pkt (e.state.state.flows.lookup k) else none
  | .sweep _ => none

/-- The alerts of a kind in a call, by flow and value. -/
def alertValues (kind : EventKind) (e : CallEntry F) : List (FlowKey × F) :=
  (Engine.alerts kind e.output).map fun ev => (ev.key, ev.value)

namespace Engine

/-- The flow of a packet is in the table after its call. -/
theorem process_lookup_self (e : Engine F) (pkt : PacketMeta) :
    ((e.process pkt).1.state.flows.lookup pkt.key).isSome := by
  have hupdate : (e.state.update pkt).1.flows.lookup pkt.key
      = some (flowStep pkt (e.state.flows.lookup pkt.key)).1 := by
    rw [EngineState.lookup_update, if_pos rfl]
  rw [process_state]
  split
  · -- seen just now, the flow is not idle
    have hidle (ttl : ℕ) :
        (flowStep pkt (e.state.flows.lookup pkt.key)).1.idle ttl pkt.tsNanos = false := by
      rw [FlowState.idle, flowStep_lastSeenNs, Nat.sub_self]
      exact decide_eq_false (Nat.not_lt_zero ttl)
    obtain ⟨f', hf'⟩ :=
      sweepFlow_of_not_idle (hidle (secsToNanos (e.state.update pkt).1.cfg.flowTtlSecs))
    rw [EngineState.lookup_sweep, hupdate, Option.bind_some, hf']
    rfl
  · rw [hupdate]
    rfl

section Part

variable {T J : Type} {π : Option FlowState → T}
  (hsweep : ∀ (cfg : DetectConfig F) now f f', sweepFlow cfg now f = some f' →
    π (some f') = π (some f))

include hsweep

/-- A sweep that keeps the flow leaves the part. -/
theorem part_sweep (s : EngineState F) (now : ℕ) {k : FlowKey}
    (hkept : (s.flows.lookup k).isSome → ((s.sweep now).1.flows.lookup k).isSome) :
    π ((s.sweep now).1.flows.lookup k) = π (s.flows.lookup k) := by
  rw [EngineState.lookup_sweep] at hkept ⊢
  cases hf : s.flows.lookup k with
  | none => rfl
  | some f =>
      rw [hf] at hkept
      obtain ⟨f', hf'⟩ := Option.isSome_iff_exists.1 (hkept rfl)
      rw [Option.bind_some] at hf' ⊢
      rw [hf']
      exact hsweep _ _ _ _ hf'

/-- A packet and the sweep that may follow it move the part as the packet does. -/
theorem part_process (e : Engine F) (pkt : PacketMeta) {k : FlowKey}
    (hkept : (e.state.flows.lookup k).isSome →
      ((e.process pkt).1.state.flows.lookup k).isSome) :
    π ((e.process pkt).1.state.flows.lookup k)
      = π ((e.state.update pkt).1.flows.lookup k) := by
  have hupdate : ((e.state.update pkt).1.flows.lookup k).isSome →
      ((e.process pkt).1.state.flows.lookup k).isSome := by
    rw [EngineState.lookup_update]
    by_cases hk : k = pkt.key
    · rw [hk]
      exact fun _ => process_lookup_self e pkt
    · rw [if_neg hk]
      exact hkept
  rw [process_state] at hupdate ⊢
  by_cases hdue : e.sweepIntervalNs ≤ pkt.tsNanos - e.lastSweepNs
  · rw [if_pos hdue] at hupdate ⊢
    exact part_sweep hsweep _ _ hupdate
  · rw [if_neg hdue]

/-- **A part of a kept flow** is the fold of what its packets add. -/
theorem kept_fold {record : PacketMeta → Option FlowState → Option J} {g : T → J → T}
    (hpacket : ∀ pkt found, π (some (flowStep pkt found).1)
      = (record pkt found).elim (π found) (g (π found)))
    (cfg : DetectConfig F) (k : FlowKey) (calls : List Call)
    (hkept : Keeps k (machine.log (new cfg) calls)) :
    π ((machine.after (new cfg) calls).state.flows.lookup k)
      = ((machine.log (new cfg) calls).filterMap (recordOn k record)).foldl g (π none) := by
  induction calls using List.reverseRecOn with
  | nil => rfl
  | append_singleton calls c ih =>
      rw [Machine.log_concat] at hkept ⊢
      have ih := ih fun e he => hkept e (List.mem_append_left _ he)
      have hcall := hkept _ (List.mem_append_right _ List.mem_cons_self)
      rw [Machine.after_concat, List.filterMap_append, List.foldl_append, ← ih]
      generalize machine.after (new cfg) calls = e at hcall ⊢
      -- only a packet of the flow can add a record
      cases c with
      | sweep now => exact part_sweep hsweep e.state now hcall
      | process pkt =>
          have hpart := part_process hsweep e pkt hcall
          rw [EngineState.lookup_update] at hpart
          rw [step_process, hpart]
          by_cases hk : k = pkt.key
          · rw [if_pos hk, hpacket]
            cases hrecord : record pkt (e.state.flows.lookup k) <;>
              simp [recordOn, hk.symm, hrecord]
          · rw [if_neg hk]
            simp [recordOn, Ne.symm hk]

end Part

/-! ## Alerts block by block -/

/-- A flow that is kept was kept before. -/
theorem keeps_prefix {cfg : DetectConfig F} {k : FlowKey} {pre post : List Call}
    (h : Keeps k (machine.log (new cfg) (pre ++ post))) : Keeps k (machine.log (new cfg) pre) := by
  rw [Machine.log_append] at h
  exact fun e he => h e (List.mem_append_left _ he)

/-- **Block rule.**  If what a recorded packet shows depends on its record and on its place among
equal ones, the run shows the image of the blocks of its records. -/
theorem blockMap_run {J β : Type} [DecidableEq J] {f : J → ℕ → β} (shown : CallEntry F → β)
    (record : PacketMeta → Option FlowState → Option J) (cfg : DetectConfig F) (k : FlowKey)
    (calls : List Call)
    (h : ∀ pre pkt post j, calls = pre ++ .process pkt :: post → pkt.key = k →
      record pkt ((machine.after (new cfg) pre).state.flows.lookup k) = some j →
      shown ⟨machine.after (new cfg) pre, .process pkt,
          ((machine.after (new cfg) pre).process pkt).2⟩
        = f j (Blocks.place ((machine.log (new cfg) pre).filterMap (recordOn k record)) j)) :
    ((machine.log (new cfg) calls).filterMap fun e => (recordOn k record e).map fun _ => shown e)
      = Blocks.blockMap f ((machine.log (new cfg) calls).filterMap (recordOn k record)) := by
  induction calls using List.reverseRecOn with
  | nil => rfl
  | append_singleton calls c ih =>
      have ih := ih fun pre pkt post j hcalls =>
        h pre pkt (post ++ [c]) j (by rw [hcalls, List.append_assoc, List.cons_append])
      rw [Machine.log_concat, List.filterMap_append, List.filterMap_append, ih]
      generalize hlog : machine.log (new cfg) calls = log at h ⊢
      cases hrecord : recordOn k record (⟨machine.after (new cfg) calls, c,
          (machine.step (machine.after (new cfg) calls) c).2⟩ : CallEntry F) with
      | none => simp [hrecord]
      | some j =>
          rw [List.filterMap_cons_some hrecord, List.filterMap_nil, Blocks.blockMap_concat]
          cases c with
          | sweep now => cases hrecord
          | process pkt =>
              have hkey : pkt.key = k := by
                by_contra hne
                simp [recordOn, hne] at hrecord
              have hj : record pkt ((machine.after (new cfg) calls).state.flows.lookup k)
                  = some j := by
                simpa [recordOn, hkey] using hrecord
              have hshown := h calls pkt [] j rfl hkey hj
              rw [hlog] at hshown
              rw [← hshown]
              simp [recordOn, hkey, hj]

end Engine
