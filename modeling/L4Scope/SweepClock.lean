/-
# When a packet runs a sweep

A packet runs a sweep if it comes at least a second after the last packet that did.  The
time of that packet depends on the timestamps alone: it is the mark of a clock that moves to the
first time at least a gap past it (`lastSweepNs_after`), and so never moves back.

A packet from the future takes the mark with it, and no packet sweeps again until the
timestamps have caught up (`stalled_of_future`).  Which runs keep sweeping, every second of
packet time, is `Engine.keepsSweeping_iff`.
-/
import L4Scope.Runs

/-! ## The mark -/

/-- The mark after a time: it moves if the time is at least `gap` past it. -/
def markStep (gap last t : ℕ) : ℕ := if gap ≤ t - last then t else last

/-- The mark after these times, from 0. -/
def mark (gap : ℕ) (times : List ℕ) : ℕ := times.foldl (markStep gap) 0

section Mark

variable {gap : ℕ}

/-- One more time. -/
theorem mark_concat (gap : ℕ) (times : List ℕ) (t : ℕ) :
    mark gap (times ++ [t]) = markStep gap (mark gap times) t :=
  List.foldl_concat _ _ _ _

/-- The mark never moves back. -/
theorem le_markStep (hgap : 0 < gap) (last t : ℕ) : last ≤ markStep gap last t := by
  unfold markStep
  split <;> omega

/-- The mark is one of the times, or still 0. -/
theorem mark_mem (gap : ℕ) (times : List ℕ) : mark gap times = 0 ∨ mark gap times ∈ times := by
  induction times using List.reverseRecOn with
  | nil => exact Or.inl rfl
  | append_singleton times t ih =>
      rw [mark_concat, markStep, List.mem_append]
      split
      · exact Or.inr (Or.inr (List.mem_singleton.2 rfl))
      · exact ih.imp_right Or.inl

/-- Every time seen is less than a gap past the mark. -/
theorem lt_mark_add (hgap : 0 < gap) (times : List ℕ) : ∀ t ∈ times, t < mark gap times + gap := by
  induction times using List.reverseRecOn with
  | nil => nofun
  | append_singleton times t ih =>
      intro u hu
      rw [mark_concat]
      rcases List.mem_append.1 hu with hold | hnew
      · -- the mark only moves forward
        have hlt := ih u hold
        have hle := le_markStep hgap (mark gap times) t
        omega
      · rw [List.mem_singleton.1 hnew]
        unfold markStep
        split <;> omega

end Mark

/-! ## The packets that run a sweep -/

namespace Engine

variable {F : Type} [F64 F]

/-- One of the packets, processed in order from `e` on, runs a sweep: the flow state behind it is
the swept one (`SweepsDuring.exists_swept`). -/
def SweepsDuring (e : Engine F) (pkts : List PacketMeta) : Prop :=
  ∃ c ∈ machine.log e (pkts.map Call.process), ∃ now, Op.sweep now ∈ c.input.ops c.state

/-- A packet moves the mark of the engine. -/
theorem process_lastSweepNs (e : Engine F) (pkt : PacketMeta) :
    (e.process pkt).1.lastSweepNs = markStep e.sweepIntervalNs e.lastSweepNs pkt.tsNanos := by
  rw [process, markStep]
  split <;> rfl

/-- It keeps the interval. -/
theorem process_sweepIntervalNs (e : Engine F) (pkt : PacketMeta) :
    (e.process pkt).1.sweepIntervalNs = e.sweepIntervalNs := by
  rw [process]
  split <;> rfl

/-- So does a run. -/
theorem sweepIntervalNs_after (e : Engine F) (pkts : List PacketMeta) :
    (machine.after e (pkts.map Call.process)).sweepIntervalNs = e.sweepIntervalNs := by
  induction pkts generalizing e with
  | nil => rfl
  | cons pkt pkts ih =>
      rw [List.map_cons, Machine.after_cons, ih]
      exact process_sweepIntervalNs e pkt

/-- **The last sweep** is where the timestamps put the mark. -/
theorem lastSweepNs_after (cfg : DetectConfig F) (pkts : List PacketMeta) :
    (machine.after (new cfg) (pkts.map Call.process)).lastSweepNs
      = mark NS_PER_SEC (pkts.map PacketMeta.tsNanos) := by
  induction pkts using List.reverseRecOn with
  | nil => rfl
  | append_singleton pkts pkt ih =>
      rw [List.map_append, List.map_append, List.map_singleton, List.map_singleton,
        Machine.after_concat, mark_concat, step_process, process_lastSweepNs, ih,
        sweepIntervalNs_after]
      rfl

omit [F64 F] in
/-- A packet's call holds a sweep if the last one was long enough ago. -/
theorem exists_sweep_ops (e : Engine F) (pkt : PacketMeta) :
    (∃ now, Op.sweep now ∈ (Call.process pkt).ops e)
      ↔ e.sweepIntervalNs ≤ pkt.tsNanos - e.lastSweepNs := by
  rw [Call.ops]
  split_ifs with hdue
  · simpa using hdue
  · simpa using hdue

/-- A packet whose call holds a sweep leaves the state that the sweep makes of the packet's. -/
theorem state_of_sweep_mem_ops {e : Engine F} {pkt : PacketMeta} {now : ℕ}
    (h : Op.sweep now ∈ (Call.process pkt).ops e) :
    (e.process pkt).1.state = ((e.state.update pkt).1.sweep pkt.tsNanos).1 := by
  have hstep := state_step e (.process pkt)
  rw [Call.ops] at h hstep
  split_ifs at h hstep with hdue
  · exact hstep
  · simp at h

/-- Among packets that run a sweep there is one behind which the flow state is the swept one. -/
theorem SweepsDuring.exists_swept {e : Engine F} {pkts : List PacketMeta}
    (h : e.SweepsDuring pkts) : ∃ pre pkt post, pkts = pre ++ pkt :: post ∧
      (machine.after e ((pre ++ [pkt]).map Call.process)).state
        = (((machine.after e (pre.map Call.process)).state.update pkt).1.sweep pkt.tsNanos).1 := by
  obtain ⟨c, hc, now, hop⟩ := h
  obtain ⟨calls, rest, hcalls, hstate, -⟩ := (Machine.mem_log _).1 hc
  obtain ⟨pre, post', hpkts, rfl, hpost⟩ := List.map_eq_append_iff.1 hcalls
  obtain ⟨pkt, post, rfl, hpkt, -⟩ := List.map_eq_cons_iff.1 hpost
  refine ⟨pre, pkt, post, hpkts, ?_⟩
  rw [hstate, ← hpkt] at hop
  rw [List.map_append, List.map_singleton, Machine.after_concat, step_process]
  exact state_of_sweep_mem_ops hop

/-- A sweep runs as soon as a packet is a second past the last sweep, and not before. -/
theorem sweepsDuring_iff {e : Engine F} (hint : e.sweepIntervalNs = NS_PER_SEC)
    (pkts : List PacketMeta) :
    e.SweepsDuring pkts ↔ ∃ pkt ∈ pkts, e.lastSweepNs + NS_PER_SEC ≤ pkt.tsNanos := by
  induction pkts generalizing e with
  | nil => simp [SweepsDuring]
  | cons pkt pkts ih =>
      have hnext := ih ((process_sweepIntervalNs e pkt).trans hint)
      have hpos : 0 < NS_PER_SEC := by decide
      have hdue : (∃ now, Op.sweep now ∈ (Call.process pkt).ops e)
          ↔ e.lastSweepNs + NS_PER_SEC ≤ pkt.tsNanos := by
        rw [exists_sweep_ops, hint]
        omega
      have hsplit : e.SweepsDuring (pkt :: pkts) ↔ e.lastSweepNs + NS_PER_SEC ≤ pkt.tsNanos ∨
          (e.process pkt).1.SweepsDuring pkts := by
        rw [← hdue, SweepsDuring, List.map_cons, Machine.log_cons, List.exists_mem_cons_iff]
        rfl
      rw [hsplit, hnext, List.exists_mem_cons_iff, process_lastSweepNs, hint, markStep]
      by_cases hlate : e.lastSweepNs + NS_PER_SEC ≤ pkt.tsNanos
      · simp [hlate]
      · rw [if_neg (by omega)]

/-- The packets after a point of a run sweep exactly if one of them is a second past the mark. -/
theorem sweepsDuring_after_iff (cfg : DetectConfig F) (seen pkts : List PacketMeta) :
    (machine.after (new cfg) (seen.map Call.process)).SweepsDuring pkts ↔
      ∃ pkt ∈ pkts, mark NS_PER_SEC (seen.map PacketMeta.tsNanos) + NS_PER_SEC ≤ pkt.tsNanos := by
  rw [sweepsDuring_iff (sweepIntervalNs_after (new cfg) seen), lastSweepNs_after]

/-- A packet later than all before it is followed by a sweep within a second. -/
theorem sweeps_of_latest (cfg : DetectConfig F) {seen pkts : List PacketMeta} {p q : PacketMeta}
    (hlatest : ∀ r ∈ seen, r.tsNanos ≤ p.tsNanos) (hq : q ∈ pkts)
    (hlate : p.tsNanos + NS_PER_SEC ≤ q.tsNanos) :
    (machine.after (new cfg) ((seen ++ [p]).map Call.process)).SweepsDuring pkts := by
  rw [sweepsDuring_after_iff]
  refine ⟨q, hq, ?_⟩
  have hmark : mark NS_PER_SEC ((seen ++ [p]).map PacketMeta.tsNanos) ≤ p.tsNanos := by
    rcases mark_mem NS_PER_SEC ((seen ++ [p]).map PacketMeta.tsNanos) with hzero | hmem
    · rw [hzero]
      exact Nat.zero_le _
    · obtain ⟨r, hr, hts⟩ := List.mem_map.1 hmem
      rw [← hts]
      rcases List.mem_append.1 hr with hold | hnew
      · exact hlatest r hold
      · rw [List.mem_singleton.1 hnew]
  omega

/-- After a packet from the future none sweeps, as long as they are earlier. -/
theorem stalled_of_future (cfg : DetectConfig F) {seen pkts : List PacketMeta}
    {far : PacketMeta} (hfar : far ∈ seen) (hearlier : ∀ r ∈ pkts, r.tsNanos ≤ far.tsNanos) :
    ¬ (machine.after (new cfg) (seen.map Call.process)).SweepsDuring pkts := by
  rw [sweepsDuring_after_iff]
  rintro ⟨r, hr, hlate⟩
  have hpos : 0 < NS_PER_SEC := by decide
  have hlt := lt_mark_add hpos (seen.map PacketMeta.tsNanos) far.tsNanos
    (List.mem_map_of_mem hfar)
  have hle := hearlier r hr
  omega

/-- **Sweeps keep running** along a run, between any two packets a second apart, exactly if
from every such packet on, up to the other, some packet is a second past the mark. -/
theorem keepsSweeping_iff (cfg : DetectConfig F) (pkts : List PacketMeta) :
    (∀ pre p mid q post, pkts = pre ++ p :: (mid ++ q :: post) →
      p.tsNanos + NS_PER_SEC ≤ q.tsNanos →
        (machine.after (new cfg) ((pre ++ [p]).map Call.process)).SweepsDuring (mid ++ [q])) ↔
      ∀ pre p mid q post, pkts = pre ++ p :: (mid ++ q :: post) →
        p.tsNanos + NS_PER_SEC ≤ q.tsNanos →
          ∃ r ∈ mid ++ [q],
            mark NS_PER_SEC ((pre ++ [p]).map PacketMeta.tsNanos) + NS_PER_SEC ≤ r.tsNanos := by
  constructor
  · intro h pre p mid q post hpkts hlate
    exact (sweepsDuring_after_iff cfg _ _).1 (h pre p mid q post hpkts hlate)
  · intro h pre p mid q post hpkts hlate
    exact (sweepsDuring_after_iff cfg _ _).2 (h pre p mid q post hpkts hlate)

end Engine

namespace Sample

/-- An ACK at this time. -/
def ackAt (t : ℕ) : PacketMeta := tcp t (ep 1 5000) (ep 2 80) TcpFlags.ACK 10 700 100 0

/-- One record from the far future, then two packets two seconds apart. -/
def futureRecord : List PacketMeta :=
  [ackAt 4000000000000000000, ackAt 1000000000, ackAt 3000000000]

end Sample

/-- Behind the record from the future, two seconds pass without a sweep. -/
theorem futureRecord_stalls :
    ¬ ∀ pre p mid q post, Sample.futureRecord = pre ++ p :: (mid ++ q :: post) →
      p.tsNanos + NS_PER_SEC ≤ q.tsNanos →
        (Engine.machine.after (.new (DetectConfig.default ℚ))
          ((pre ++ [p]).map Call.process)).SweepsDuring (mid ++ [q]) := by
  intro h
  have hsweeps := h [Sample.ackAt 4000000000000000000] (Sample.ackAt 1000000000) []
    (Sample.ackAt 3000000000) [] rfl (by decide)
  exact Engine.stalled_of_future (DetectConfig.default ℚ) List.mem_cons_self (by decide) hsweeps
