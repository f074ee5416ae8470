/-
# Sharding by flow key

Flows do not interfere, so the traffic can be split by any predicate on flow keys and
each part given to an engine of its own.  `SameShard` relates the state of the whole
run to that of the run of one shard; every operation of the shard keeps it and all
others leave it alone, which gives the flow table, the deltas and the timeout events of
the shard.  The host-wide counters are then sums over the two shards.
-/
import L4Scope.HalfOpen
import L4Scope.HostRates

/-! ## Shards -/

/-- The operation belongs to the shard of the keys satisfying `P`: every sweep does, and
the packets of these keys. -/
def Op.inShard (P : FlowKey → Bool) : Op → Bool
  | .update pkt => P pkt.key
  | .sweep _ => true

/-- The operations of a shard. -/
def shard (P : FlowKey → Bool) (ops : List Op) : List Op := ops.filter (Op.inShard P)

/-- A step of the shard's run reports what the step of the whole run does about the
shard: the same delta for a packet, and the timeouts of the shard's keys for a sweep. -/
def MatchesShard {F : Type} (P : FlowKey → Bool)
    (whole part : Machine.Entry (EngineState F) Op (Out F)) : Prop :=
  part.input = whole.input ∧
    match whole.output, part.output with
    | .updated d, .updated d' => d' = d
    | .swept evs, .swept evs' => evs'.Perm (evs.filter fun ev => P ev.key)
    | _, _ => False

namespace EngineState

variable {F : Type}

/-- The state `t` tracks exactly the flows of `s` whose keys satisfy `P`. -/
structure SameShard (P : FlowKey → Bool) (s t : EngineState F) : Prop where
  cfg : t.cfg = s.cfg
  lookup : ∀ k, t.flows.lookup k = (s.flows.restrict P).lookup k

variable {P : FlowKey → Bool} {s t : EngineState F}

/-- In its shard, a flow is found as in the whole table. -/
theorem SameShard.lookup_of_mem (h : SameShard P s t) {k : FlowKey} (hk : P k = true) :
    t.flows.lookup k = s.flows.lookup k := by
  rw [h.lookup, Table.lookup_restrict, if_pos hk]

/-- A packet of the shard, on both sides. -/
theorem SameShard.update (h : SameShard P s t) {pkt : PacketMeta} (hp : P pkt.key = true) :
    SameShard P (s.update pkt).1 (t.update pkt).1 where
  cfg := h.cfg
  lookup k := by
    rw [Table.lookup_restrict, lookup_update, lookup_update]
    by_cases hk : k = pkt.key
    · subst hk
      rw [if_pos rfl, if_pos rfl, if_pos hp, h.lookup_of_mem hp]
    · rw [if_neg hk, if_neg hk, h.lookup, Table.lookup_restrict]

/-- A packet of another shard is not seen. -/
theorem SameShard.skip (h : SameShard P s t) {pkt : PacketMeta} (hp : P pkt.key = false) :
    SameShard P (s.update pkt).1 t where
  cfg := h.cfg
  lookup k := by
    rw [h.lookup, Table.lookup_restrict, Table.lookup_restrict, lookup_update]
    by_cases hk : k = pkt.key
    · subst hk
      rw [hp]
      rfl
    · rw [if_neg hk]

variable [F64 F]

/-- A sweep, on both sides. -/
theorem SameShard.sweep (h : SameShard P s t) (now : ℕ) :
    SameShard P (s.sweep now).1 (t.sweep now).1 where
  cfg := by rw [sweep_cfg, sweep_cfg, h.cfg]
  lookup k := by
    rw [Table.lookup_restrict, lookup_sweep, lookup_sweep, h.lookup, Table.lookup_restrict, h.cfg]
    cases P k <;> rfl

/-- The timeouts a shard reports are those of its keys. -/
theorem SameShard.sweep_events (h : SameShard P s t) (now : ℕ) :
    (t.sweep now).2.Perm ((s.sweep now).2.filter fun ev => P ev.key) := by
  have hperm := Table.entries_perm h.lookup
  rw [EngineState.sweep_events, EngineState.sweep_events, h.cfg, List.filter_map,
    List.filter_filter]
  refine List.Perm.map _ ?_
  have hfilter := hperm.filter fun e =>
    e.2.timedOut (secsToNanos s.cfg.handshakeTimeoutSecs) now
  rw [Table.restrict, List.filter_filter] at hfilter
  refine hfilter.trans (List.Perm.of_eq ?_)
  apply List.filter_congr
  intro e _
  exact Bool.and_comm _ _

/-- **One shard.**  The run of a shard ends in the shard of the whole run's state, and
its steps match those of the whole run. -/
theorem shard_run (P : FlowKey → Bool) (cfg : DetectConfig F) (ops : List Op) :
    SameShard P (machine.after (new cfg) ops) (machine.after (new cfg) (shard P ops)) ∧
      List.Forall₂ (MatchesShard P)
        ((machine.log (new cfg) ops).filter fun e => e.input.inShard P)
        (machine.log (new cfg) (shard P ops)) := by
  refine machine.forall₂_log_filter (Op.inShard P) ?_ ?_ ?_ ops
  · rintro s t (pkt | now) h hin
    · refine ⟨h.update hin, rfl, ?_⟩
      show (t.update pkt).2.2 = (s.update pkt).2.2
      rw [update_delta, update_delta, h.lookup_of_mem hin]
    · exact ⟨h.sweep now, rfl, h.sweep_events now⟩
  · rintro s t (pkt | now) h hin
    · exact h.skip hin
    · cases hin
  · have hnone : ∀ k, (new cfg).flows.lookup k = none := fun k => AList.lookup_empty k
    refine ⟨rfl, fun k => ?_⟩
    rw [Table.lookup_restrict, hnone]
    split_ifs <;> rfl

/-! ## The half-open counters -/

/-- A shard tracks no more flows than the whole engine. -/
theorem fewFlows_shard (P : FlowKey → Bool) {cfg : DetectConfig F} {ops : List Op}
    (h : (new cfg).FewFlows ops) : (new cfg).FewFlows (shard P ops) := by
  intro pre hpre
  obtain ⟨pre', hpre', rfl⟩ := List.prefix_filter_iff.1 hpre
  refine lt_of_le_of_lt ?_ (h pre' hpre')
  have hshard := (shard_run P cfg pre').1
  rw [shard] at hshard
  rw [Table.size_congr hshard.lookup]
  exact Table.size_restrict_le P _

/-- Half-open counters add up over a shard and its complement. -/
theorem halfOpenFor_shards (P : FlowKey → Bool) {cfg : DetectConfig F} {ops : List Op}
    (h : (new cfg).FewFlows ops) (ep : Endpoint) :
    ((machine.after (new cfg) ops).globals.halfOpenFor ep).toNat
      = ((machine.after (new cfg) (shard P ops)).globals.halfOpenFor ep).toNat
        + ((machine.after (new cfg) (shard (fun k => !P k) ops)).globals.halfOpenFor ep).toNat := by
  have hnew := new_halfOpenExact cfg
  rw [after_halfOpenExact hnew h ep, after_halfOpenExact hnew (fewFlows_shard P h) ep,
    after_halfOpenExact hnew (fewFlows_shard _ h) ep, halfOpenFlows, halfOpenFlows, halfOpenFlows,
    Table.count_congr _ (shard_run P cfg ops).1.lookup,
    Table.count_congr _ (shard_run (fun k => !P k) cfg ops).1.lookup,
    Table.count_restrict_add]

/-! ## The rates -/

omit [F64 F] in
/-- Lists whose elements match give the same visible parts. -/
theorem filterMap_eq_of_forall₂ {α β γ : Type} {R : α → β → Prop} {f : α → Option γ}
    {g : β → Option γ} {l : List α} {l' : List β} (h : List.Forall₂ R l l')
    (hfg : ∀ a b, R a b → g b = f a) : l'.filterMap g = l.filterMap f := by
  induction h with
  | nil => rfl
  | cons hab _ ih => rw [List.filterMap_cons, List.filterMap_cons, hfg _ _ hab, ih]

omit [F64 F] in
/-- The shard records what the whole does. -/
theorem recordedAt_matches (flag : PacketDelta → Bool)
    {e e' : Machine.Entry (EngineState F) Op (Out F)} (h : MatchesShard P e e') :
    recordedAt flag e' = recordedAt flag e := by
  obtain ⟨s, op, out⟩ := e
  obtain ⟨t, op', out'⟩ := e'
  obtain ⟨hin, hout⟩ := h
  dsimp only at hin hout
  subst hin
  cases op' with
  | sweep now => rfl
  | update pkt =>
      cases out <;> cases out' <;> simp only at hout
      · rw [hout]
        rfl
      · rfl

/-- The recorded times of a shard, counted by any property. -/
theorem countP_recorded_shard (P : FlowKey → Bool) (cfg : DetectConfig F) (ops : List Op)
    (flag : PacketDelta → Bool) (q : ℕ → Bool) :
    ((machine.log (new cfg) (shard P ops)).filterMap (recordedAt flag)).countP q
      = (machine.log (new cfg) ops).countP fun e =>
        ((recordedAt flag e).map q).getD false && e.input.inShard P := by
  have hrec := filterMap_eq_of_forall₂ (shard_run P cfg ops).2 fun _ _ =>
    recordedAt_matches flag
  rw [hrec, List.countP_filterMap, List.countP_filter]

/-- The recorded times are shared out between a shard and its complement. -/
theorem countP_recorded_shards (P : FlowKey → Bool) (cfg : DetectConfig F) (ops : List Op)
    (flag : PacketDelta → Bool) (q : ℕ → Bool) :
    ((machine.log (new cfg) ops).filterMap (recordedAt flag)).countP q
      = ((machine.log (new cfg) (shard P ops)).filterMap (recordedAt flag)).countP q
        + ((machine.log (new cfg) (shard (fun k => !P k) ops)).filterMap
          (recordedAt flag)).countP q := by
  rw [countP_recorded_shard, countP_recorded_shard, List.countP_filterMap]
  apply countP_eq_add
  · rintro ⟨s, pkt | now, out⟩ _
    · simp only [Op.inShard]
      cases P pkt.key <;> simp
    · rfl
  · rintro ⟨s, pkt | now, out⟩ _
    · simp only [Op.inShard]
      cases P pkt.key <;> simp
    · rfl

/-- The count of a rate that records the flagged packets of a run in order. -/
theorem countWindow_recorded (cfg : DetectConfig F) (ops : List Op) (flag : PacketDelta → Bool)
    {now : ℕ} (hsorted : (packetTimes ops).Pairwise (· ≤ ·)) (hnow : ∀ t ∈ packetTimes ops, t ≤ now) :
    (((machine.log (new cfg) ops).filterMap (recordedAt flag)).foldl RollingRate.record
        (RollingRate.new 1)).countWindow now
      = ((machine.log (new cfg) ops).filterMap (recordedAt flag)).countP fun t =>
        RollingRate.inWindow 1 now (RollingRate.second t) := by
  have hsub := recorded_sublist flag (new cfg) ops
  have htracks := RollingRate.tracks_foldl_record 1 (hsorted.sublist hsub)
  have hcount := RollingRate.countWindow_eq htracks fun t ht =>
    Nat.div_le_div_right (c := NS_PER_SEC) (hnow t (hsub.subset ht))
  rw [hcount, RollingRate.windowSecs_foldl_record]
  rfl

/-- The times of a shard are times of the whole. -/
theorem packetTimes_shard (P : FlowKey → Bool) (ops : List Op) :
    (packetTimes (shard P ops)).Sublist (packetTimes ops) :=
  List.filter_sublist.filterMap _

/-- A rate adds up over a shard and its complement. -/
theorem countWindow_shards (P : FlowKey → Bool) (cfg : DetectConfig F) (ops : List Op)
    (flag : PacketDelta → Bool) (rate : EngineState F → RollingRate)
    (hrate : ∀ ops, rate (machine.after (new cfg) ops)
      = ((machine.log (new cfg) ops).filterMap (recordedAt flag)).foldl RollingRate.record
        (RollingRate.new 1))
    {now : ℕ} (hsorted : (packetTimes ops).Pairwise (· ≤ ·)) (hnow : ∀ t ∈ packetTimes ops, t ≤ now) :
    (rate (machine.after (new cfg) ops)).countWindow now
      = (rate (machine.after (new cfg) (shard P ops))).countWindow now
        + (rate (machine.after (new cfg) (shard (fun k => !P k) ops))).countWindow now := by
  have hpart : ∀ Q : FlowKey → Bool,
      (rate (machine.after (new cfg) (shard Q ops))).countWindow now
        = ((machine.log (new cfg) (shard Q ops)).filterMap (recordedAt flag)).countP fun t =>
          RollingRate.inWindow 1 now (RollingRate.second t) := by
    intro Q
    have hsub := packetTimes_shard Q ops
    rw [hrate]
    exact countWindow_recorded cfg _ flag (hsorted.sublist hsub) fun t ht => hnow t (hsub.subset ht)
  rw [hpart, hpart, hrate, countWindow_recorded cfg ops flag hsorted hnow,
    countP_recorded_shards P]

/-! ## The whole state -/

/-- **The engine can be sharded by flow key.**  Let `part Q` be the state after the
operations of the shard `Q`, out of a run that tracks few flows.  Every shard tracks
its part of the flow table, gives its packets the same deltas and reports its own
timeouts; the half-open counters, and the rates at a time no earlier than the packets
taken in order, are the sums over a shard and its complement. -/
theorem sharded (cfg : DetectConfig F) (P : FlowKey → Bool) (ops : List Op)
    (hfew : (new cfg).FewFlows ops) :
    let full := machine.after (new cfg) ops
    let part := fun Q => machine.after (new cfg) (shard Q ops)
    let notP := fun k => !P k
    (∀ Q, (∀ k, (part Q).flows.lookup k = (full.flows.restrict Q).lookup k) ∧
      List.Forall₂ (MatchesShard Q)
        ((machine.log (new cfg) ops).filter fun e => e.input.inShard Q)
        (machine.log (new cfg) (shard Q ops))) ∧
    (∀ ep, (full.globals.halfOpenFor ep).toNat
      = ((part P).globals.halfOpenFor ep).toNat + ((part notP).globals.halfOpenFor ep).toNat) ∧
    ((packetTimes ops).Pairwise (· ≤ ·) → ∀ now, (∀ t ∈ packetTimes ops, t ≤ now) →
      full.globals.rstRate.countWindow now
        = (part P).globals.rstRate.countWindow now + (part notP).globals.rstRate.countWindow now ∧
      full.globals.newFlowRate.countWindow now
        = (part P).globals.newFlowRate.countWindow now
          + (part notP).globals.newFlowRate.countWindow now) := by
  refine ⟨fun Q => ?_, halfOpenFor_shards P hfew, fun hsorted now hnow => ⟨?_, ?_⟩⟩
  · obtain ⟨hshard, hlog⟩ := shard_run Q cfg ops
    exact ⟨hshard.lookup, hlog⟩
  · exact countWindow_shards P cfg ops PacketDelta.rst (fun s => s.globals.rstRate)
      (fun ops => after_rstRate (new cfg) ops) hsorted hnow
  · exact countWindow_shards P cfg ops PacketDelta.newFlow (fun s => s.globals.newFlowRate)
      (fun ops => after_newFlowRate (new cfg) ops) hsorted hnow

/-- Two connections to different servers, sharded by the client. -/
theorem sharded_two :
    let syn := Sample.tcp 0 (Sample.ep 1 5000) (Sample.ep 2 80) TcpFlags.SYN 100 0 64240 0
    let rst := Sample.tcp 7 (Sample.ep 3 5003) (Sample.ep 4 8080) TcpFlags.RST 0 0 0 0
    let ops : List Op := [.update syn, .update rst, .sweep 9]
    let P := fun k : FlowKey => decide (k = syn.key)
    let part := fun Q => machine.after (new (DetectConfig.default ℚ)) (shard Q ops)
    (machine.after (new (DetectConfig.default ℚ)) ops).globals.rstRate.countWindow 7
      = (part P).globals.rstRate.countWindow 7
        + (part fun k => !P k).globals.rstRate.countWindow 7 :=
  ((sharded (DetectConfig.default ℚ) _ _ (fewFlows_of_length (by decide))).2.2
    (by decide) 7 (by decide)).1

end EngineState
