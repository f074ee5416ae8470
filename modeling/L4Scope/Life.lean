/-
# The life of a flow

A flow lives from the packet that inserts it into the table to the sweep that evicts it.
`life k log` is the part of a log that belongs to the present life of the flow `k`;
`life_rule` is the induction over it: one case for the flow's own packets, one for the
packets of other flows and one for the sweeps that keep it.
-/
import L4Scope.Handshake

variable {F : Type} [F64 F]

/-- A step of a run of the flow state. -/
abbrev Step (F : Type) := Machine.Entry (EngineState F) Op (Out F)

namespace Step

/-- The events a step reports by itself, before any detector. -/
def events (e : Step F) : List (L4Event F) :=
  match e.output with
  | .swept evs => evs
  | .updated _ => []

/-- The delta of a packet on `k`, if the step takes one. -/
def deltaOn (k : FlowKey) (e : Step F) : Option PacketDelta :=
  match e.input, e.output with
  | .update pkt, .updated d => if pkt.key = k then some d else none
  | _, _ => none

/-- The step the flow state takes on an operation. -/
def of (s : EngineState F) (op : Op) : Step F := ⟨s, op, (EngineState.machine.step s op).2⟩

end Step

/-- The steps since `k` was last inserted in the flow table, none while `k` is not
tracked: the list starts again after every step that leaves `k` untracked. -/
def life (k : FlowKey) (log : List (Step F)) : List (Step F) :=
  log.foldl (fun steps e =>
    if ((EngineState.machine.step e.state e.input).1.flows.lookup k).isNone then []
    else steps ++ [e]) []

/-- A life goes on until its flow is gone. -/
theorem life_concat (k : FlowKey) (log : List (Step F)) (e : Step F) :
    life k (log ++ [e])
      = if ((EngineState.machine.step e.state e.input).1.flows.lookup k).isNone then []
        else life k log ++ [e] := by
  unfold life
  rw [List.foldl_append]
  rfl

/-- **Induction over the life of a flow.**  A property of the steps of a life and of
what the table holds for the flow holds after any operations, if it holds of a flow not
tracked and is kept by the packets of the flow, by the packets of other flows, and by
the sweeps that do not evict the flow. -/
theorem life_rule (k : FlowKey) (cfg : DetectConfig F)
    {J : List (Step F) → Option FlowState → Prop} (hnone : J [] none)
    (hpacket : ∀ s steps pkt, s.cfg = cfg → pkt.key = k → J steps (s.flows.lookup k) →
      J (steps ++ [Step.of s (.update pkt)]) (some (flowStep pkt (s.flows.lookup k)).1))
    (hother : ∀ s steps f pkt, s.cfg = cfg → pkt.key ≠ k → s.flows.lookup k = some f →
      J steps (some f) → J (steps ++ [Step.of s (.update pkt)]) (some f))
    (hsweep : ∀ s steps f f' now, s.cfg = cfg → s.flows.lookup k = some f → J steps (some f) →
      sweepFlow cfg now f = some f' → J (steps ++ [Step.of s (.sweep now)]) (some f'))
    (ops : List Op) :
    J (life k (EngineState.machine.log (EngineState.new cfg) ops))
      ((EngineState.machine.after (EngineState.new cfg) ops).flows.lookup k) := by
  induction ops using List.reverseRecOn with
  | nil => exact hnone
  | append_singleton ops op ih =>
      have hcfg := EngineState.after_cfg (EngineState.new cfg) ops
      rw [Machine.log_concat, Machine.after_concat, life_concat]
      generalize EngineState.machine.after (EngineState.new cfg) ops = s at ih hcfg ⊢
      generalize life k (EngineState.machine.log (EngineState.new cfg) ops) = steps at ih ⊢
      have hs : s.cfg = cfg := hcfg
      cases op with
      | update pkt =>
          simp only [EngineState.step_update, EngineState.lookup_update]
          by_cases hk : k = pkt.key
          · rw [if_pos hk]
            exact hpacket s steps pkt hs hk.symm ih
          · rw [if_neg hk]
            cases hf : s.flows.lookup k with
            | none => exact hnone
            | some f => exact hother s steps f pkt hs (Ne.symm hk) hf (hf ▸ ih)
      | sweep now =>
          simp only [EngineState.step_sweep, EngineState.lookup_sweep, hs]
          cases hf : s.flows.lookup k with
          | none => exact hnone
          | some f =>
              cases hf' : sweepFlow cfg now f with
              | none =>
                  simp only [Option.bind_some, hf']
                  exact hnone
              | some f' =>
                  simp only [Option.bind_some, hf']
                  exact hsweep s steps f f' now hs hf (hf ▸ ih) hf'
