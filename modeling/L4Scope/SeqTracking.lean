/-
# Sequence tracking

The part of a flow that follows sequence numbers (`SeqTrack`), as an automaton of its
own, and the byte stream it stands for: an unbounded stream has a high-water mark, and a
data segment is late if it starts below it and ahead if it starts above it.
`EngineState.seqTracking_refines` says that the 32-bit numbers of the flow follow the
unbounded stream as long as no segment strays half the number space from the mark.
-/
import L4Scope.Life
import L4Scope.SerialNumber

/-! ## The automaton -/

/-- The sequence part of a flow. -/
structure SeqTrack where
  nextSeq : PerDir (Option UInt32)
  retransmits : ℕ
  dataSegments : ℕ

/-- What a packet says about its place in the stream. -/
structure SeqFlags where
  late : Bool
  ahead : Bool
  deriving DecidableEq

/-- The sequence tracking of a flow. -/
def FlowState.seqTrack (f : FlowState) : SeqTrack where
  nextSeq := f.nextSeq
  retransmits := f.retransmits
  dataSegments := f.dataSegments

/-- The sequence flags of a delta. -/
def PacketDelta.seqFlags (d : PacketDelta) : SeqFlags where
  late := d.isRetransmit
  ahead := d.isOutOfOrder

namespace SeqTrack

/-- The sequence part of a flow just inserted. -/
def init : SeqTrack where
  nextSeq := ⟨none, none⟩
  retransmits := 0
  dataSegments := 0

/-- Sets the sequence number that is expected next. -/
def expect (dir : Direction) (seq : UInt32) (t : SeqTrack) : SeqTrack :=
  { t with nextSeq := t.nextSeq.set dir (some seq) }

/-- One data segment. -/
def onData (dir : Direction) (seq len : UInt32) (t : SeqTrack) : SeqTrack × SeqFlags :=
  match t.nextSeq.get dir with
  | none =>
    ({ t with dataSegments := t.dataSegments + 1 }.expect dir (seq + len), ⟨false, false⟩)
  | some exp =>
    let late := decide (seqDiff seq exp < 0)
    let t := { t with
      dataSegments := t.dataSegments + 1
      retransmits := t.retransmits + if late then 1 else 0 }
    (if 0 < seqDiff (seq + len) exp then t.expect dir (seq + len) else t,
      ⟨late, 0 < seqDiff seq exp⟩)

/-- One packet: a SYN sets the expected number, a data segment is compared with it. -/
def onPacket (t : SeqTrack) (p : PacketMeta) : SeqTrack × SeqFlags :=
  if p.proto = .tcp then
    if p.flags.syn then (t.expect p.dir (p.seq + 1), ⟨false, false⟩)
    else if p.flags.rst then (t, ⟨false, false⟩)
    else if 0 < p.payloadLen then t.onData p.dir p.seq p.payloadLen
    else (t, ⟨false, false⟩)
  else (t, ⟨false, false⟩)

variable (t : SeqTrack)

/-- The packet is a data segment. -/
def isData (p : PacketMeta) : Bool :=
  p.proto = .tcp && !p.flags.syn && !p.flags.rst && 0 < p.payloadLen

/-- A segment is counted, and as a retransmission if it is late. -/
theorem onData_counters (dir : Direction) (seq len : UInt32) :
    (t.onData dir seq len).1.dataSegments = t.dataSegments + 1 ∧
      (t.onData dir seq len).1.retransmits
        = t.retransmits + if (t.onData dir seq len).2.late then 1 else 0 := by
  unfold onData
  cases t.nextSeq.get dir with
  | none => exact ⟨rfl, rfl⟩
  | some exp =>
      dsimp only
      by_cases hend : 0 < seqDiff (seq + len) exp
      · rw [if_pos hend]
        exact ⟨rfl, rfl⟩
      · rw [if_neg hend]
        exact ⟨rfl, rfl⟩

/-- The counters count the data segments and the late ones. -/
theorem onPacket_counters (p : PacketMeta) :
    (t.onPacket p).1.dataSegments = t.dataSegments + (if isData p then 1 else 0) ∧
      (t.onPacket p).1.retransmits
        = t.retransmits + if (t.onPacket p).2.late then 1 else 0 := by
  unfold onPacket isData
  by_cases hproto : p.proto = .tcp
  · rw [if_pos hproto, decide_eq_true hproto]
    cases p.flags.syn with
    | true => exact ⟨rfl, rfl⟩
    | false =>
        cases p.flags.rst with
        | true => exact ⟨rfl, rfl⟩
        | false =>
            by_cases hlen : 0 < p.payloadLen
            · simp only [Bool.false_eq_true, if_false, if_pos hlen, decide_eq_true hlen]
              exact t.onData_counters p.dir p.seq p.payloadLen
            · simp only [Bool.false_eq_true, if_false, if_neg hlen, decide_eq_false hlen]
              exact ⟨rfl, rfl⟩
  · rw [if_neg hproto, decide_eq_false hproto]
    exact ⟨rfl, rfl⟩

/-- A packet leaves the other direction alone. -/
theorem onPacket_nextSeq_ne {dir : Direction} {p : PacketMeta} (hdir : dir ≠ p.dir) :
    (t.onPacket p).1.nextSeq.get dir = t.nextSeq.get dir := by
  unfold onPacket onData
  split_ifs
  · exact PerDir.get_set_ne _ _ hdir
  · rfl
  · cases t.nextSeq.get p.dir with
    | none => exact PerDir.get_set_ne _ _ hdir
    | some exp =>
        dsimp only
        by_cases hend : 0 < seqDiff (p.seq + p.payloadLen) exp
        · rw [if_pos hend]
          exact PerDir.get_set_ne _ _ hdir
        · rw [if_neg hend]
  · rfl
  · rfl

end SeqTrack

/-! ## The flow table runs the automaton -/

/-- The sequence parts of the flow and of the delta. -/
def Work.seq (w : Work) : SeqTrack × SeqFlags := (w.flow.seqTrack, w.d.seqFlags)

/-- The sequence parts, of the data part. -/
def DataPart.seq (p : DataPart) : SeqTrack × SeqFlags :=
  (⟨p.nextSeq, p.retransmits, p.dataSegments⟩, ⟨p.isRetransmit, p.isOutOfOrder⟩)

section Arms

variable (pkt : PacketMeta) (w : Work)

/-- The window check leaves the sequence tracking alone. -/
theorem seq_zeroWindowEdge : (zeroWindowEdge pkt w).seq = w.seq := by
  unfold zeroWindowEdge
  split_ifs <;> rfl

/-- So does the tracking of acknowledgements. -/
theorem seq_trackDupAck : (trackDupAck pkt w).seq = w.seq := by
  unfold trackDupAck
  split_ifs <;> rfl

/-- The data-segment block runs the automaton, on a delta not yet flagged. -/
theorem seq_trackSegment (hd : w.d.seqFlags = ⟨false, false⟩) : (trackSegment pkt w).seq
    = if 0 < pkt.payloadLen then w.flow.seqTrack.onData pkt.dir pkt.seq pkt.payloadLen
      else w.seq := by
  have hlate : w.d.isRetransmit = false := congrArg SeqFlags.late hd
  have hahead : w.d.isOutOfOrder = false := congrArg SeqFlags.ahead hd
  unfold trackSegment
  dsimp only
  by_cases hlen : 0 < pkt.payloadLen
  · rw [if_pos hlen, if_pos hlen, SeqTrack.onData]
    have hnext : w.flow.seqTrack.nextSeq = w.flow.nextSeq := rfl
    rw [hnext]
    cases w.flow.nextSeq.get pkt.dir with
    | none =>
        refine Prod.ext rfl ?_
        exact hd
    | some exp =>
        dsimp only
        have hexcl : seqDiff pkt.seq exp < 0 → ¬ 0 < seqDiff pkt.seq exp := by
          rw [Int32.lt_iff_toInt_lt, Int32.lt_iff_toInt_lt]
          omega
        by_cases hneg : seqDiff pkt.seq exp < 0 <;> by_cases hpos : 0 < seqDiff pkt.seq exp <;>
          by_cases hend : 0 < seqDiff (pkt.seq + pkt.payloadLen) exp <;>
            simp [Work.seq, FlowState.seqTrack, PacketDelta.seqFlags, SeqTrack.expect, hneg, hpos,
              hend, hlate, hahead]
        · exact hexcl hneg hpos
        · exact hexcl hneg hpos
  · rw [if_neg hlen, if_neg hlen]

/-- Ingesting a packet runs the automaton. -/
theorem seq_ingest (hd : w.d.seqFlags = ⟨false, false⟩) :
    (ingest pkt w).seq = w.flow.seqTrack.onPacket pkt := by
  have hpart : (ingest pkt w).seq = _ := congrArg DataPart.seq (dataPart_ingest pkt w)
  rw [hpart, SeqTrack.onPacket]
  by_cases hproto : pkt.proto = .tcp
  · rw [if_pos hproto, if_pos hproto]
    by_cases hsyn : pkt.flags.syn = true
    · rw [if_pos hsyn, if_pos hsyn]
      exact Prod.ext rfl hd
    · rw [if_neg hsyn, if_neg hsyn]
      by_cases hrst : pkt.flags.rst = true
      · rw [if_pos hrst, if_pos hrst]
        exact Prod.ext rfl hd
      · rw [if_neg hrst, if_neg hrst]
        let w' : Work := { w with flow := { w.flow with lastSeenNs := pkt.tsNanos } }
        have hseq : (zeroWindowEdge pkt (closeOnFin pkt (completeHandshake pkt w'))).seq
            = w.seq := by
          rw [seq_zeroWindowEdge]
          exact congrArg DataPart.seq (dataPart_connection pkt w')
        have hflags := congrArg Prod.snd hseq
        have htrack := congrArg Prod.fst hseq
        show (onSegment pkt w').seq = _
        rw [onSegment, seq_trackDupAck, seq_trackSegment _ _ (hflags.trans hd), hseq]
        split_ifs
        · exact congrArg (SeqTrack.onData pkt.dir pkt.seq pkt.payloadLen) htrack
        · exact Prod.ext rfl hd
  · rw [if_neg hproto, if_neg hproto]
    exact Prod.ext rfl hd

end Arms

/-- The sequence part of what the table holds under a key. -/
def seqTrackOf (found : Option FlowState) : SeqTrack :=
  (found.map FlowState.seqTrack).getD SeqTrack.init

/-- **A packet moves the sequence part of its flow as the automaton does**, and reports
the automaton's flags. -/
theorem seq_flowStep (pkt : PacketMeta) (found : Option FlowState) :
    ((flowStep pkt found).1.seqTrack, (flowStep pkt found).2.seqFlags)
      = (seqTrackOf found).onPacket pkt := by
  cases found with
  | none => exact seq_ingest pkt (flowEntry pkt none Globals.new) rfl
  | some f => exact seq_ingest pkt (flowEntry pkt (some f) Globals.new) rfl

/-- The sequence tracking of a flow moves as the tracker does. -/
theorem seqTrack_flowStep (pkt : PacketMeta) (found : Option FlowState) :
    (flowStep pkt found).1.seqTrack = ((seqTrackOf found).onPacket pkt).1 :=
  congrArg Prod.fst (seq_flowStep pkt found)

/-- And so do the flags. -/
theorem seqFlags_flowStep (pkt : PacketMeta) (found : Option FlowState) :
    (flowStep pkt found).2.seqFlags = ((seqTrackOf found).onPacket pkt).2 :=
  congrArg Prod.snd (seq_flowStep pkt found)

/-- Sweeps leave the sequence part of the flows they keep. -/
theorem seqTrack_sweepFlow {F : Type} [F64 F] {cfg : DetectConfig F} {now : ℕ} {f f' : FlowState}
    (h : sweepFlow cfg now f = some f') : f'.seqTrack = f.seqTrack := by
  unfold sweepFlow at h
  split_ifs at h <;> rw [← Option.some.inj h]
  rfl

namespace EngineState

/-- A packet moves the sequence part of its own flow, and of no other. -/
theorem seqTrack_update (s : EngineState F) (pkt : PacketMeta) :
    seqTrackOf ((s.update pkt).1.flows.lookup pkt.key)
      = ((seqTrackOf (s.flows.lookup pkt.key)).onPacket pkt).1 := by
  rw [lookup_update, if_pos rfl]
  exact seqTrack_flowStep pkt _

/-- Packets of other flows leave it alone. -/
theorem seqTrack_update_ne (s : EngineState F) {pkt : PacketMeta} {k : FlowKey}
    (hne : pkt.key ≠ k) :
    seqTrackOf ((s.update pkt).1.flows.lookup k) = seqTrackOf (s.flows.lookup k) := by
  rw [lookup_update, if_neg (Ne.symm hne)]

/-- A sweep evicts a flow or leaves its sequence part. -/
theorem seqTrack_sweep [F64 F] (s : EngineState F) (now : ℕ) (k : FlowKey) :
    (s.sweep now).1.flows.lookup k = none ∨
      seqTrackOf ((s.sweep now).1.flows.lookup k) = seqTrackOf (s.flows.lookup k) := by
  rw [lookup_sweep]
  cases s.flows.lookup k with
  | none => exact Or.inl rfl
  | some f =>
      rw [Option.bind_some]
      cases hf' : sweepFlow s.cfg now f with
      | none => exact Or.inl rfl
      | some f' => exact Or.inr (seqTrack_sweepFlow hf')

end EngineState

/-! ## The unbounded stream -/

/-- A data segment at its place in the unbounded stream of its direction. -/
structure StreamSeg where
  off : ℤ
  len : ℕ

namespace StreamSeg

/-- The high-water mark after a segment; `none` stands for a stream not yet seen. -/
def raise (mark : Option ℤ) (g : StreamSeg) : Option ℤ :=
  match mark with
  | none => some (g.off + g.len)
  | some h => some (max h (g.off + g.len))

/-- The segment starts before the mark. -/
def late (mark : Option ℤ) (g : StreamSeg) : Bool := mark.any fun h => g.off < h

/-- The segment starts behind the mark. -/
def ahead (mark : Option ℤ) (g : StreamSeg) : Bool := mark.any fun h => h < g.off

/-- Both ends of the segment lie within half the number space of the mark. -/
def Near (mark : Option ℤ) (g : StreamSeg) : Prop :=
  ∀ h, mark = some h → h - 2 ^ 31 ≤ g.off ∧ g.off + g.len < h + 2 ^ 31

end StreamSeg

/-- The high-water mark after some segments. -/
def highWater (mark : Option ℤ) (gs : List StreamSeg) : Option ℤ := gs.foldl StreamSeg.raise mark

/-- The number of segments that start below the mark they find. -/
def lateCount : Option ℤ → List StreamSeg → ℕ
  | _, [] => 0
  | mark, g :: gs => (if g.late mark then 1 else 0) + lateCount (g.raise mark) gs

/-- One more segment. -/
theorem lateCount_concat (mark : Option ℤ) (gs : List StreamSeg) (g : StreamSeg) :
    lateCount mark (gs ++ [g])
      = lateCount mark gs + if g.late (highWater mark gs) then 1 else 0 := by
  induction gs generalizing mark with
  | nil => rw [List.nil_append, lateCount, lateCount, lateCount, Nat.zero_add, Nat.add_zero]; rfl
  | cons g₀ gs ih =>
      rw [List.cons_append, lateCount, lateCount, ih]
      have hmark : highWater mark (g₀ :: gs) = highWater (g₀.raise mark) gs := rfl
      rw [hmark]
      omega

/-- One more segment raises the mark. -/
theorem highWater_concat (mark : Option ℤ) (gs : List StreamSeg) (g : StreamSeg) :
    highWater mark (gs ++ [g]) = g.raise (highWater mark gs) := by
  unfold highWater
  rw [List.foldl_append]
  rfl

/-- **A data segment near the mark is handled as in the unbounded stream.** -/
theorem SeqTrack.onData_wrap {t : SeqTrack} {dir : Direction} {mark : Option ℤ}
    (hnext : t.nextSeq.get dir = mark.map Serial.wrap) {g : StreamSeg} (hnear : g.Near mark)
    {len : UInt32} (hlen : len.toNat = g.len) (hpos : 0 < g.len) :
    let r := t.onData dir (Serial.wrap g.off) len
    r.1.nextSeq.get dir = (g.raise mark).map Serial.wrap ∧
      r.2 = ⟨g.late mark, g.ahead mark⟩ := by
  have hend : Serial.wrap g.off + len = Serial.wrap (g.off + g.len) := by
    rw [Serial.wrap_add, hlen]
  simp only [onData, hnext, hend]
  cases mark with
  | none => exact ⟨PerDir.get_set _ _ _, rfl⟩
  | some h =>
      obtain ⟨hlo, hhi⟩ := hnear h rfl
      have hneg := Serial.sub_wrap_neg (x := g.off) (y := h) hlo (by omega)
      have hgt := Serial.sub_wrap_pos (x := g.off) (y := h) hlo (by omega)
      have hendgt := Serial.sub_wrap_pos (x := g.off + g.len) (y := h) (by omega) hhi
      simp only [Option.map_some, seqDiff, hneg, hgt, hendgt, StreamSeg.late, StreamSeg.ahead,
        StreamSeg.raise, Option.any_some]
      by_cases hraise : h < g.off + g.len
      · rw [if_pos hraise, max_eq_right (by omega)]
        exact ⟨PerDir.get_set _ _ _, trivial⟩
      · rw [if_neg hraise, max_eq_left (by omega)]
        exact ⟨hnext, trivial⟩

/-! ## Runs of one direction -/

/-- The data segment of the stream `dir` of flow `k` that an operation carries, given its
offset. -/
def streamSeg (k : FlowKey) (dir : Direction) (a : Op × ℤ) : Option StreamSeg :=
  match a.1 with
  | .update p =>
    if p.key = k ∧ p.dir = dir ∧ 0 < p.payloadLen then some ⟨a.2, p.payloadLen.toNat⟩ else none
  | .sweep _ => none

/-- The packets of the stream are TCP segments without SYN or RST, and the data segments
carry their offset modulo `2 ^ 32`. -/
def OnStream (k : FlowKey) (dir : Direction) (a : Op × ℤ) : Prop :=
  match a.1 with
  | .update p => p.key = k → p.dir = dir → p.proto = .tcp ∧ p.flags.syn = false ∧
      p.flags.rst = false ∧ (0 < p.payloadLen → p.seq = Serial.wrap a.2)
  | .sweep _ => True

/-- A data segment on `k` in the other direction. -/
def oppositeData (k : FlowKey) (dir : Direction) : Op → Bool
  | .update p => p.key = k && p.dir ≠ dir && SeqTrack.isData p
  | .sweep _ => false

variable {F : Type} [F64 F]

/-- A retransmission on `k` in the other direction. -/
def oppositeLate (k : FlowKey) (dir : Direction) (e : Step F) : Bool :=
  match e.input, e.output with
  | .update p, .updated d => p.key = k && p.dir ≠ dir && d.isRetransmit
  | _, _ => false

namespace EngineState

/-- Where a stream starts: with no mark if the flow expects nothing in this direction
yet, and just after the sequence number of a SYN or SYN-ACK without payload. -/
inductive StreamStart (k : FlowKey) (dir : Direction) (s : EngineState F) : Option ℤ → Prop
  | unseen (h : ∀ f, s.flows.lookup k = some f → f.nextSeq.get dir = none) :
      StreamStart k dir s none
  | syn (s₀ : EngineState F) (p : PacketMeta) (isn : ℤ) (hkey : p.key = k) (hdir : p.dir = dir)
      (hproto : p.proto = .tcp) (hsyn : p.flags.syn = true) (hlen : p.payloadLen = 0)
      (hseq : p.seq = Serial.wrap isn) (hs : s = (s₀.update p).1) :
      StreamStart k dir s (some (isn + 1))

/-- No sweep of the run evicts the flow. -/
def KeepsFlow (k : FlowKey) (s : EngineState F) (ops : List Op) : Prop :=
  ∀ pre now, pre ++ [.sweep now] <+: ops → (machine.after s pre).flows.lookup k ≠ none →
    (machine.after s (pre ++ [.sweep now])).flows.lookup k ≠ none

omit [F64 F] in
/-- The expected sequence number is the mark, wrapped. -/
theorem StreamStart.nextSeq {k : FlowKey} {dir : Direction} {s : EngineState F} {mark : Option ℤ}
    (h : StreamStart k dir s mark) :
    (seqTrackOf (s.flows.lookup k)).nextSeq.get dir = mark.map Serial.wrap := by
  cases h with
  | unseen h =>
      cases hf : s.flows.lookup k with
      | none => cases dir <;> rfl
      | some f => exact h f hf
  | syn s₀ p isn hkey hdir hproto hsyn hlen hseq hs =>
      subst hkey hdir
      rw [hs, seqTrack_update, SeqTrack.onPacket, if_pos hproto, if_pos hsyn, hseq,
        Serial.wrap_add_one]
      exact PerDir.get_set _ _ _

/-- The flow follows the unbounded stream: the next expected number is the mark, and the
counters have grown by the segments of the stream and by those of the other direction. -/
structure Follows (k : FlowKey) (dir : Direction) (mark : Option ℤ) (s : EngineState F)
    (run : List (Op × ℤ)) : Prop where
  nextSeq : (seqTrackOf ((machine.after s (run.map Prod.fst)).flows.lookup k)).nextSeq.get dir
    = (highWater mark (run.filterMap (streamSeg k dir))).map Serial.wrap
  dataSegments : (seqTrackOf ((machine.after s (run.map Prod.fst)).flows.lookup k)).dataSegments
    = (seqTrackOf (s.flows.lookup k)).dataSegments
      + (run.filterMap (streamSeg k dir)).length
      + (run.map Prod.fst).countP (oppositeData k dir)
  retransmits : (seqTrackOf ((machine.after s (run.map Prod.fst)).flows.lookup k)).retransmits
    = (seqTrackOf (s.flows.lookup k)).retransmits
      + lateCount mark (run.filterMap (streamSeg k dir))
      + (machine.log s (run.map Prod.fst)).countP (oppositeLate k dir)

namespace Follows

variable {k : FlowKey} {dir : Direction} {mark : Option ℤ} {s : EngineState F}
  {run : List (Op × ℤ)}

/-- An operation that neither carries a segment of the flow nor moves its sequence part. -/
theorem skip (h : Follows k dir mark s run) {a : Op × ℤ} (hseg : streamSeg k dir a = none)
    (hdata : oppositeData k dir a.1 = false)
    (hlate : oppositeLate k dir (Step.of (machine.after s (run.map Prod.fst)) a.1) = false)
    (hsame : seqTrackOf ((machine.step (machine.after s (run.map Prod.fst)) a.1).1.flows.lookup k)
      = seqTrackOf ((machine.after s (run.map Prod.fst)).flows.lookup k)) :
    Follows k dir mark s (run ++ [a]) := by
  have hsegs : (run ++ [a]).filterMap (streamSeg k dir) = run.filterMap (streamSeg k dir) := by
    simp [hseg]
  have hops : (run ++ [a]).map Prod.fst = run.map Prod.fst ++ [a.1] := by simp
  refine ⟨?_, ?_, ?_⟩
  · rw [hops, hsegs, Machine.after_concat, hsame, h.nextSeq]
  · rw [hops, hsegs, Machine.after_concat, hsame, h.dataSegments, List.countP_append,
      List.countP_singleton, hdata]
    rfl
  · rw [hops, hsegs, Machine.after_concat, hsame, h.retransmits, Machine.log_concat,
      List.countP_append, List.countP_singleton]
    have hlate' : oppositeLate k dir ⟨machine.after s (run.map Prod.fst), a.1,
        (machine.step (machine.after s (run.map Prod.fst)) a.1).2⟩ = false := hlate
    rw [hlate']
    rfl

/-- A packet of the flow in the other direction. -/
theorem opposite (h : Follows k dir mark s run) {p : PacketMeta} {off : ℤ} (hkey : p.key = k)
    (hdir : p.dir ≠ dir) : Follows k dir mark s (run ++ [(.update p, off)]) := by
  subst hkey
  have hseg : streamSeg p.key dir (.update p, off) = none := by simp [streamSeg, hdir]
  have hsegs : (run ++ [(Op.update p, off)]).filterMap (streamSeg p.key dir)
      = run.filterMap (streamSeg p.key dir) := by simp [hseg]
  have hops : (run ++ [(Op.update p, off)]).map Prod.fst = run.map Prod.fst ++ [.update p] := by
    simp
  obtain ⟨hnext, hdata, hretx⟩ := h
  refine ⟨?_, ?_, ?_⟩ <;> rw [hops, hsegs, Machine.after_concat, step_update, seqTrack_update]
  · rw [SeqTrack.onPacket_nextSeq_ne _ (Ne.symm hdir), hnext]
  · rw [(SeqTrack.onPacket_counters _ p).1, hdata, List.countP_append, List.countP_singleton]
    simp only [oppositeData, decide_true, Bool.true_and, ne_eq, hdir, not_false_eq_true]
    omega
  · have hflag : (flowStep p ((machine.after s (run.map Prod.fst)).flows.lookup p.key)).2.isRetransmit
        = _ := congrArg SeqFlags.late (seqFlags_flowStep p _)
    rw [(SeqTrack.onPacket_counters _ p).2, hretx, Machine.log_concat, List.countP_append,
      List.countP_singleton]
    simp only [oppositeLate, step_update, update_delta, hflag, decide_true, Bool.true_and, ne_eq,
      hdir, not_false_eq_true]
    omega

/-- What a data segment of the stream does to the sequence part of the flow. -/
theorem onPacket_segment (h : Follows k dir mark s run) {p : PacketMeta} {off : ℤ}
    (hon : OnStream k dir (.update p, off)) (hkey : p.key = k) (hdir : p.dir = dir)
    (hlen : 0 < p.payloadLen)
    (hnear : StreamSeg.Near (highWater mark (run.filterMap (streamSeg k dir)))
      ⟨off, p.payloadLen.toNat⟩) :
    let t := seqTrackOf ((machine.after s (run.map Prod.fst)).flows.lookup k)
    let mark' := highWater mark (run.filterMap (streamSeg k dir))
    let g : StreamSeg := ⟨off, p.payloadLen.toNat⟩
    (t.onPacket p).1.nextSeq.get dir = (g.raise mark').map Serial.wrap ∧
      (t.onPacket p).2 = ⟨g.late mark', g.ahead mark'⟩ := by
  obtain ⟨hproto, hsyn, hrst, hseq⟩ := hon hkey hdir
  intro t mark' g
  have hpos : 0 < p.payloadLen.toNat := UInt32.lt_iff_toNat_lt.1 hlen
  have hpacket : t.onPacket p = t.onData dir (Serial.wrap off) p.payloadLen := by
    rw [SeqTrack.onPacket, if_pos hproto, hsyn, hrst, if_pos hlen, hseq hlen, hdir]
    rfl
  rw [hpacket]
  exact SeqTrack.onData_wrap h.nextSeq hnear rfl hpos

/-- A data segment of the stream. -/
theorem segment (h : Follows k dir mark s run) {p : PacketMeta} {off : ℤ}
    (hon : OnStream k dir (.update p, off)) (hkey : p.key = k) (hdir : p.dir = dir)
    (hlen : 0 < p.payloadLen)
    (hnear : StreamSeg.Near (highWater mark (run.filterMap (streamSeg k dir)))
      ⟨off, p.payloadLen.toNat⟩) : Follows k dir mark s (run ++ [(.update p, off)]) := by
  obtain ⟨hnext', hflags⟩ := h.onPacket_segment hon hkey hdir hlen hnear
  obtain ⟨hproto, hsyn, hrst, -⟩ := hon hkey hdir
  have hisData : SeqTrack.isData p = true := by simp [SeqTrack.isData, hproto, hsyn, hrst, hlen]
  have hseg : streamSeg k dir (.update p, off) = some ⟨off, p.payloadLen.toNat⟩ := by
    simp [streamSeg, hkey, hdir, hlen]
  have hsegs : (run ++ [(Op.update p, off)]).filterMap (streamSeg k dir)
      = run.filterMap (streamSeg k dir) ++ [⟨off, p.payloadLen.toNat⟩] := by simp [hseg]
  have hops : (run ++ [(Op.update p, off)]).map Prod.fst = run.map Prod.fst ++ [.update p] := by
    simp
  subst hkey
  refine ⟨?_, ?_, ?_⟩ <;> rw [hops, hsegs, Machine.after_concat, step_update, seqTrack_update]
  · rw [hnext', highWater_concat]
  · rw [(SeqTrack.onPacket_counters _ p).1, h.dataSegments, hisData, List.countP_append,
      List.countP_singleton, List.length_append]
    simp [oppositeData, hdir]
    omega
  · rw [(SeqTrack.onPacket_counters _ p).2, h.retransmits, hflags, Machine.log_concat,
      List.countP_append, List.countP_singleton, lateCount_concat]
    simp [oppositeLate, hdir]
    omega

end Follows

/-- One operation of a run that keeps the flow. -/
theorem Follows.concat {k : FlowKey} {dir : Direction} {mark : Option ℤ} {s : EngineState F}
    {run : List (Op × ℤ)} (h : Follows k dir mark s run) {a : Op × ℤ} (hon : OnStream k dir a)
    (hkeep : ∀ now, a.1 = .sweep now →
      (machine.after s (run.map Prod.fst)).flows.lookup k ≠ none →
      ((machine.after s (run.map Prod.fst)).sweep now).1.flows.lookup k ≠ none)
    (hnear : ∀ g, streamSeg k dir a = some g →
      g.Near (highWater mark (run.filterMap (streamSeg k dir)))) :
    Follows k dir mark s (run ++ [a]) := by
  obtain ⟨op, off⟩ := a
  cases op with
  | sweep now =>
      refine h.skip rfl rfl rfl ?_
      rw [step_sweep]
      rcases seqTrack_sweep (machine.after s (run.map Prod.fst)) now k with hgone | hsame
      · -- it was not tracked before either
        have huntracked := not_imp_not.1 (hkeep now rfl) hgone
        rw [hgone, huntracked]
      · exact hsame
  | update p =>
      by_cases hkey : p.key = k
      · by_cases hdir : p.dir = dir
        · by_cases hlen : 0 < p.payloadLen
          · refine h.segment hon hkey hdir hlen (hnear _ ?_)
            simp [streamSeg, hkey, hdir, hlen]
          · -- a segment without data
            obtain ⟨hproto, hsyn, hrst, -⟩ := hon hkey hdir
            refine h.skip ?_ ?_ ?_ ?_
            · simp [streamSeg, hlen]
            · simp [oppositeData, hdir]
            · simp [oppositeLate, Step.of, hdir]
            · subst hkey
              rw [step_update, seqTrack_update, SeqTrack.onPacket, if_pos hproto, hsyn, hrst,
                if_neg hlen]
              rfl
        · exact h.opposite hkey hdir
      · refine h.skip ?_ ?_ ?_ ?_
        · simp [streamSeg, hkey]
        · simp [oppositeData, hkey]
        · simp [oppositeLate, Step.of, hkey]
        · rw [step_update, seqTrack_update_ne _ hkey]

/-- The segments of a run, each near the mark it finds. -/
def AllNear (mark : Option ℤ) (gs : List StreamSeg) : Prop :=
  ∀ pre g post, gs = pre ++ g :: post → g.Near (highWater mark pre)

/-- The first segment, and the others behind it. -/
theorem allNear_cons {mark : Option ℤ} {g : StreamSeg} {gs : List StreamSeg} :
    AllNear mark (g :: gs) ↔ g.Near mark ∧ AllNear (g.raise mark) gs := by
  constructor
  · intro h
    refine ⟨h [] g gs rfl, fun pre g' post hgs => ?_⟩
    exact h (g :: pre) g' post (by rw [hgs, List.cons_append])
  · rintro ⟨hg, hgs⟩ pre g' post heq
    cases pre with
    | nil =>
        obtain ⟨rfl, -⟩ := List.cons.inj heq
        exact hg
    | cons g₀ pre =>
        obtain ⟨rfl, htail⟩ := List.cons.inj heq
        exact hgs pre g' post htail

/-- A run on the stream keeps following it. -/
theorem follows_run {k : FlowKey} {dir : Direction} {mark : Option ℤ} {s : EngineState F}
    (hstart : StreamStart k dir s mark) {run : List (Op × ℤ)}
    (hon : ∀ a ∈ run, OnStream k dir a) (hkeep : KeepsFlow k s (run.map Prod.fst))
    (hnear : AllNear mark (run.filterMap (streamSeg k dir))) : Follows k dir mark s run := by
  induction run using List.reverseRecOn with
  | nil => exact ⟨hstart.nextSeq, rfl, rfl⟩
  | append_singleton run a ih =>
      have hpre : run.map Prod.fst <+: (run ++ [a]).map Prod.fst :=
        (List.prefix_append run [a]).map Prod.fst
      have hrun := ih (fun b hb => hon b (List.mem_append_left _ hb))
        (fun pre now hsub => hkeep pre now (hsub.trans hpre))
        (fun pre g post hsegs => hnear pre g (post ++ (streamSeg k dir a).toList) (by
          rw [List.filterMap_append, hsegs]
          cases hseg : streamSeg k dir a <;> simp [hseg]))
      refine hrun.concat (hon a (by simp)) ?_ ?_
      · intro now ha htracked
        have hstays := hkeep (run.map Prod.fst) now (by simp [ha]) htracked
        rwa [Machine.after_concat] at hstays
      · intro g hseg
        exact hnear _ g [] (by simp [hseg])

/-- **Sequence tracking refines an unbounded byte stream.**  Take a stream of flow `k` in
direction `dir`, a run in which the packets of this direction are TCP segments without SYN
or RST whose data starts at the given offsets, interleaved with any packets of the other
direction and of other flows and with sweeps that keep the flow; and let every segment be
near the high-water mark it finds.  Then at every point of the run the next expected
number is the mark modulo `2 ^ 32` and the counters of the flow have grown by the
segments of the stream, and by those of the other direction; and every data segment is
reported as a retransmission exactly if it starts below the mark, and as out of order
exactly if it starts above it. -/
theorem seqTracking_refines {k : FlowKey} {dir : Direction} {mark : Option ℤ}
    {s : EngineState F} (hstart : StreamStart k dir s mark) {run : List (Op × ℤ)}
    (hon : ∀ a ∈ run, OnStream k dir a) (hkeep : KeepsFlow k s (run.map Prod.fst))
    (hnear : AllNear mark (run.filterMap (streamSeg k dir))) :
    (∀ pre post f, run = pre ++ post →
      (machine.after s (pre.map Prod.fst)).flows.lookup k = some f →
      f.nextSeq.get dir = (highWater mark (pre.filterMap (streamSeg k dir))).map Serial.wrap ∧
      f.dataSegments = (seqTrackOf (s.flows.lookup k)).dataSegments
        + (pre.filterMap (streamSeg k dir)).length
        + (pre.map Prod.fst).countP (oppositeData k dir) ∧
      f.retransmits = (seqTrackOf (s.flows.lookup k)).retransmits
        + lateCount mark (pre.filterMap (streamSeg k dir))
        + (machine.log s (pre.map Prod.fst)).countP (oppositeLate k dir)) ∧
    (∀ pre post p off, run = pre ++ (.update p, off) :: post → p.key = k → p.dir = dir →
      0 < p.payloadLen →
      let d := ((machine.after s (pre.map Prod.fst)).update p).2.2
      let mark' := highWater mark (pre.filterMap (streamSeg k dir))
      (d.isRetransmit = true ↔ ∃ h, mark' = some h ∧ off < h) ∧
      (d.isOutOfOrder = true ↔ ∃ h, mark' = some h ∧ h < off)) := by
  have hprefix : ∀ pre post, run = pre ++ post → Follows k dir mark s pre := by
    rintro pre post rfl
    refine follows_run hstart (fun a ha => hon a (List.mem_append_left _ ha)) ?_ ?_
    · intro pre' now hsub
      exact hkeep pre' now (hsub.trans ((List.prefix_append pre post).map Prod.fst))
    · intro gs g gs' hsegs
      exact hnear gs g (gs' ++ post.filterMap (streamSeg k dir)) (by
        rw [List.filterMap_append, hsegs]
        simp)
  refine ⟨?_, ?_⟩
  · intro pre post f hrun hf
    have h := hprefix pre post hrun
    obtain ⟨hnext, hdata, hretx⟩ := h
    rw [hf] at hnext hdata hretx
    exact ⟨hnext, hdata, hretx⟩
  · intro pre post p off hrun hkey hdir hlen d mark'
    have h := hprefix pre _ hrun
    have hseg : streamSeg k dir (.update p, off) = some ⟨off, p.payloadLen.toNat⟩ := by
      simp [streamSeg, hkey, hdir, hlen]
    have hnear' : StreamSeg.Near mark' ⟨off, p.payloadLen.toNat⟩ :=
      hnear _ _ (post.filterMap (streamSeg k dir)) (by rw [hrun]; simp [hseg])
    have hflags : d.seqFlags = ⟨StreamSeg.late mark' ⟨off, p.payloadLen.toNat⟩,
        StreamSeg.ahead mark' ⟨off, p.payloadLen.toNat⟩⟩ := by
      show ((machine.after s (pre.map Prod.fst)).update p).2.2.seqFlags = _
      rw [update_delta, seqFlags_flowStep, hkey]
      exact (h.onPacket_segment (hon _ (by rw [hrun]; simp)) hkey hdir hlen hnear').2
    have hlate : d.isRetransmit = _ := congrArg SeqFlags.late hflags
    have hahead : d.isOutOfOrder = _ := congrArg SeqFlags.ahead hflags
    rw [hlate, hahead]
    constructor
    · show StreamSeg.late mark' ⟨off, p.payloadLen.toNat⟩ = true ↔ _
      simp [StreamSeg.late, Option.any_eq_true]
    · show StreamSeg.ahead mark' ⟨off, p.payloadLen.toNat⟩ = true ↔ _
      simp [StreamSeg.ahead, Option.any_eq_true]

/-- The test `detects_retransmissions`: a SYN with number 100, then the same hundred bytes
twice. -/
theorem seqTracking_refines_retransmit :
    let c := Sample.ep 1 5000
    let s := Sample.ep 2 80
    let syn := Sample.tcp 0 c s TcpFlags.SYN 100 0 64240 0
    let data := Sample.tcp 3 c s (TcpFlags.ACK ||| TcpFlags.PSH) 101 901 64240 100
    let start := ((new (DetectConfig.default ℚ)).update syn).1
    ((machine.after start [.update data]).update data).2.2.isRetransmit = true := by
  intro c s syn data start
  have hstart : StreamStart syn.key .forward start (some (100 + 1)) :=
    .syn _ syn 100 rfl (by decide) rfl (by decide) rfl (by decide) rfl
  have hsegs : [(Op.update data, (101 : ℤ)), (.update data, 101)].filterMap
      (streamSeg syn.key .forward) = [⟨101, 100⟩, ⟨101, 100⟩] := by
    rfl
  have hon : ∀ a ∈ [(Op.update data, (101 : ℤ)), (.update data, 101)],
      OnStream syn.key .forward a := by
    intro a ha
    obtain rfl : a = (.update data, 101) := by simpa using ha
    intro _ _
    decide
  have hkeep : KeepsFlow syn.key start [.update data, .update data] := by
    intro pre now hsub
    have hmem := hsub.subset (List.mem_append_right pre (List.mem_singleton_self (Op.sweep now)))
    simp at hmem
  have hnear : AllNear (some (100 + 1)) [⟨101, 100⟩, ⟨101, 100⟩] := by
    rw [allNear_cons, allNear_cons]
    refine ⟨?_, ?_, ?_⟩
    · rintro h ⟨⟩
      decide
    · rintro h ⟨⟩
      decide
    · intro pre g post hnil
      simp at hnil
  refine ((seqTracking_refines hstart hon hkeep (hsegs ▸ hnear)).2 [(.update data, 101)] [] data
    101 rfl (by decide) (by decide) (by decide)).1.2 ?_
  exact ⟨201, rfl, by decide⟩

end EngineState
