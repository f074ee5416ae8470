/-
# Duplicate acknowledgements, block by block

The bare ACKs of one direction of a flow split into maximal blocks of equal acknowledgement
numbers.  The flow counts the repetitions in the block in progress (`AckTrack`), and the
alert is raised at one place of each block that gets that long (`dupAck_blocks`), whatever
comes in between.
-/
import L4Scope.KeptFlow

/-! ## The tracker -/

/-- TCP with ACK set, no SYN, RST or FIN, and no payload. -/
def PacketMeta.isBareAck (pkt : PacketMeta) : Bool :=
  pkt.proto = .tcp && pkt.flags.ack && !pkt.flags.syn && !pkt.flags.rst && !pkt.flags.fin
    && pkt.payloadLen = 0

/-- The last acknowledgement number of a direction and how often it was repeated. -/
structure AckTrack where
  last : Option UInt32
  repeats : UInt32

namespace AckTrack

/-- The tracker of one direction of what the table holds. -/
def of (dir : Direction) (found : Option FlowState) : AckTrack :=
  (found.map fun f => ⟨f.lastAck.get dir, f.dupAckCount.get dir⟩).getD ⟨none, 0⟩

/-- One more acknowledgement number. -/
def step (t : AckTrack) (ack : UInt32) : AckTrack :=
  if t.last = some ack then ⟨t.last, t.repeats + 1⟩ else ⟨some ack, 0⟩

/-- The counter behind its predecessor. -/
theorem ofNat_pred_add_one {n : ℕ} (hn : 0 < n) : UInt32.ofNat (n - 1) + 1 = .ofNat n := by
  have hone : (1 : UInt32) = .ofNat 1 := rfl
  rw [hone, ← UInt32.ofNat_add, Nat.sub_add_cancel hn]

/-- What the tracker knows of the acknowledgement numbers so far. -/
theorem foldl_step (acks : List UInt32) : acks.foldl step ⟨none, 0⟩
    = ⟨acks.getLast?, .ofNat (Blocks.blockLen acks - 1)⟩ := by
  induction acks using List.reverseRecOn with
  | nil => rfl
  | append_singleton acks ack ih =>
      rw [List.foldl_append, ih, List.foldl_cons, List.foldl_nil, step, List.getLast?_concat,
        Blocks.blockLen_concat, Nat.add_sub_cancel, Blocks.place]
      by_cases h : acks.getLast? = some ack
      · rw [if_pos h, if_pos h, h]
        have hpos := Blocks.blockLen_pos h
        have hone : (1 : UInt32) = .ofNat 1 := rfl
        rw [hone, ← UInt32.ofNat_add, Nat.sub_add_cancel hpos]
      · rw [if_neg h, if_neg h]
        rfl

/-- The tracker reaches the threshold at the place of that number. -/
theorem at_place_iff {bare : Bool} (hbare : bare = true) {T : UInt32} (hT : 0 < T.toNat)
    {acks : List UInt32} {ack : UInt32} (hlen : Blocks.blockLen acks < 2 ^ 32) :
    bare = true ∧ acks.getLast? = some ack ∧ UInt32.ofNat (Blocks.blockLen acks - 1) + 1 = T ↔
      Blocks.place acks ack = T.toNat := by
  rw [and_iff_right hbare, Blocks.place]
  by_cases h : acks.getLast? = some ack
  · rw [if_pos h, and_iff_right h, ofNat_pred_add_one (Blocks.blockLen_pos h), ← UInt32.toNat_inj,
      UInt32.toNat_ofNat_of_lt' hlen]
  · rw [if_neg h]
    exact iff_of_false (fun h' => h h'.1) (Nat.ne_of_lt hT)

end AckTrack

/-! ## The flow runs the tracker -/

/-- The acknowledgement part of the flow and of the delta. -/
def Work.acks (w : Work) : (PerDir (Option UInt32) × PerDir UInt32) × (Bool × UInt32) :=
  ((w.flow.lastAck, w.flow.dupAckCount), (w.d.isDupAck, w.d.dupAckCount))

/-- The acknowledgement part, of the data part. -/
def DataPart.acks (p : DataPart) : (PerDir (Option UInt32) × PerDir UInt32) × (Bool × UInt32) :=
  ((p.lastAck, p.dupAckCounts), (p.isDupAck, p.dupAckCount))

section Arms

variable (pkt : PacketMeta) (w : Work)

/-- The window check leaves the acknowledgements alone. -/
theorem acks_zeroWindowEdge : (zeroWindowEdge pkt w).acks = w.acks := by
  unfold zeroWindowEdge
  split_ifs <;> rfl

/-- So does the tracking of data. -/
theorem acks_trackSegment : (trackSegment pkt w).acks = w.acks := by
  unfold trackSegment
  dsimp only
  split_ifs
  · cases w.flow.nextSeq.get pkt.dir with
    | none => rfl
    | some exp =>
        dsimp only
        split_ifs <;> rfl
  · rfl

/-- The block on a bare ACK: repeated, or the start of a block. -/
theorem acks_trackDupAck (hbare : pkt.isBareAck = true) : (trackDupAck pkt w).acks
    = if w.flow.lastAck.get pkt.dir = some pkt.ack then
        ((w.flow.lastAck, w.flow.dupAckCount.set pkt.dir (w.flow.dupAckCount.get pkt.dir + 1)),
          (true, w.flow.dupAckCount.get pkt.dir + 1))
      else
        ((w.flow.lastAck.set pkt.dir (some pkt.ack), w.flow.dupAckCount.set pkt.dir 0),
          w.acks.2) := by
  simp only [PacketMeta.isBareAck, Bool.and_eq_true, decide_eq_true_eq] at hbare
  obtain ⟨⟨⟨⟨⟨-, hack⟩, hsyn⟩, -⟩, hfin⟩, hlen⟩ := hbare
  rw [trackDupAck, if_pos ⟨hack, hlen, hsyn, hfin⟩]
  split_ifs <;> rfl

/-- The block depends on the acknowledgement part only. -/
theorem acks_trackDupAck_congr {w w' : Work} (h : w.acks = w'.acks) :
    (trackDupAck pkt w).acks = (trackDupAck pkt w').acks := by
  obtain ⟨f, g, d⟩ := w
  obtain ⟨f', g', d'⟩ := w'
  simp only [Work.acks, Prod.mk.injEq] at h
  obtain ⟨⟨hlast, hcount⟩, hdup, hn⟩ := h
  unfold trackDupAck
  simp only [hlast, hcount]
  split_ifs
  · simp [Work.acks]
  · simp [Work.acks, hdup, hn]
  · simp [Work.acks, hlast, hcount, hdup, hn]

/-- Ingesting a packet tracks it if it is a bare ACK. -/
theorem acks_ingest : (ingest pkt w).acks
    = if pkt.isBareAck then (trackDupAck pkt w).acks else w.acks := by
  have hpart : (ingest pkt w).acks = _ := congrArg DataPart.acks (dataPart_ingest pkt w)
  rw [hpart, PacketMeta.isBareAck]
  by_cases hproto : pkt.proto = .tcp
  · rw [if_pos hproto, hproto]
    cases hsyn : pkt.flags.syn with
    | true => simp [DataPart.acks, Work.dataPart, expectAfterSyn, Work.acks]
    | false =>
        cases hrst : pkt.flags.rst with
        | true => simp [DataPart.acks, Work.dataPart, Work.acks]
        | false =>
            let w' : Work := { w with flow := { w.flow with lastSeenNs := pkt.tsNanos } }
            have hbefore : (trackSegment pkt (zeroWindowEdge pkt (closeOnFin pkt
                (completeHandshake pkt w')))).acks = w.acks := by
              rw [acks_trackSegment, acks_zeroWindowEdge]
              exact congrArg DataPart.acks (dataPart_connection pkt w')
            have hseg : (onSegment pkt w').acks = (trackDupAck pkt w).acks :=
              acks_trackDupAck_congr pkt hbefore
            simp only [Bool.false_eq_true, if_false]
            refine hseg.trans ?_
            split_ifs with hbare
            · rfl
            · rw [trackDupAck, if_neg]
              rintro ⟨hack, hlen, -, hfin⟩
              simp_all
  · rw [if_neg hproto, decide_eq_false hproto]
    rfl

end Arms

/-- The acknowledgement number of a bare ACK of the direction. -/
def ackRecord (dir : Direction) (pkt : PacketMeta) (_ : Option FlowState) : Option UInt32 :=
  if pkt.isBareAck && pkt.dir = dir then some pkt.ack else none

/-- The tracker of what the table holds, or of a flow just inserted. -/
theorem ackTrack_flowEntry (dir : Direction) (pkt : PacketMeta) (found : Option FlowState)
    (g : Globals) : AckTrack.of dir found = ⟨(flowEntry pkt found g).flow.lastAck.get dir,
      (flowEntry pkt found g).flow.dupAckCount.get dir⟩ := by
  cases found with
  | none => cases dir <;> rfl
  | some f => rfl

/-- A packet moves the tracker of its direction if it is a bare ACK. -/
theorem ackTrack_flowStep (dir : Direction) (pkt : PacketMeta) (found : Option FlowState) :
    AckTrack.of dir (some (flowStep pkt found).1)
      = (ackRecord dir pkt found).elim (AckTrack.of dir found)
        (AckTrack.of dir found).step := by
  let w := flowEntry pkt found Globals.new
  have hacks := congrArg Prod.fst (acks_ingest pkt w)
  have hnew : AckTrack.of dir (some (flowStep pkt found).1)
      = ⟨(ingest pkt w).acks.1.1.get dir, (ingest pkt w).acks.1.2.get dir⟩ := rfl
  rw [hnew, hacks, ackTrack_flowEntry dir pkt found Globals.new, ackRecord]
  cases hbare : pkt.isBareAck with
  | false => rfl
  | true =>
      rw [if_pos rfl, acks_trackDupAck pkt w hbare]
      by_cases hdir : pkt.dir = dir
      · subst hdir
        simp only [Bool.true_and, decide_true, if_true, Option.elim_some, AckTrack.step]
        split_ifs with h
        · simp [w]
        · simp
      · have hne : dir ≠ pkt.dir := Ne.symm hdir
        simp only [Bool.true_and, decide_eq_false hdir, Bool.false_eq_true, if_false,
          Option.elim_none]
        split_ifs
        · simp [PerDir.get_set_ne _ _ hne, w]
        · simp [PerDir.get_set_ne _ _ hne, w]

/-- The delta of a packet: a repetition of the tracked number, if it is a bare ACK. -/
theorem dupAck_flowStep (pkt : PacketMeta) (found : Option FlowState) :
    ((flowStep pkt found).2.isDupAck, (flowStep pkt found).2.dupAckCount)
      = if pkt.isBareAck ∧ (AckTrack.of pkt.dir found).last = some pkt.ack then
          (true, (AckTrack.of pkt.dir found).repeats + 1)
        else (false, 0) := by
  let w := flowEntry pkt found Globals.new
  have hfresh : w.acks.2 = (false, 0) := by cases found <;> rfl
  have hdelta : ((flowStep pkt found).2.isDupAck, (flowStep pkt found).2.dupAckCount)
      = (ingest pkt w).acks.2 := rfl
  rw [hdelta, acks_ingest, ackTrack_flowEntry pkt.dir pkt found Globals.new]
  cases hbare : pkt.isBareAck with
  | false => simpa using hfresh
  | true =>
      rw [if_pos rfl, acks_trackDupAck pkt w hbare]
      simp only [true_and]
      split_ifs
      · rfl
      · exact hfresh

/-- Sweeps leave the tracker of the flows they keep. -/
theorem ackTrack_sweepFlow {F : Type} [F64 F] (dir : Direction) (cfg : DetectConfig F) (now : ℕ)
    (f f' : FlowState) (h : sweepFlow cfg now f = some f') :
    AckTrack.of dir (some f') = AckTrack.of dir (some f) := by
  unfold sweepFlow at h
  split_ifs at h <;> rw [← Option.some.inj h]
  rfl

/-! ## One alert for each burst -/

variable {F : Type} [F64 F]

/-- The acknowledgement numbers of the flow's bare ACKs in a direction. -/
def bareAcks (k : FlowKey) (dir : Direction) (log : List (CallEntry F)) : List UInt32 :=
  log.filterMap (recordOn k (ackRecord dir))

namespace Engine

/-- The duplicate-ACK alert of a packet. -/
theorem dupAck_process {e : Engine F} {d : Debounces} (hd : e.detectors = d.chain)
    (pkt : PacketMeta) {found : Option FlowState} (hfound : e.state.flows.lookup pkt.key = found) :
    alertValues .duplicateAck (⟨e, .process pkt, (e.process pkt).2⟩ : CallEntry F)
      = if pkt.isBareAck ∧ (AckTrack.of pkt.dir found).last = some pkt.ack ∧
            (AckTrack.of pkt.dir found).repeats + 1 = e.state.cfg.dupAckThreshold then
          [(pkt.key, F64.ofU64 e.state.cfg.dupAckThreshold.toNat)]
        else [] := by
  have hone : (e.detectors.filter fun x => x.kind = .duplicateAck) = [.dupAck] := by
    rw [hd]
    rfl
  have hdelta : (e.ctx pkt).delta = (flowStep pkt found).2 := by
    rw [← hfound]
    exact EngineState.update_delta e.state pkt
  have hcfg : (e.ctx pkt).cfg = e.state.cfg := rfl
  have hflags := dupAck_flowStep pkt found
  rw [alertValues, alerts_process_one (by decide) hone]
  simp only [Detector.inspect, inspectDupAck, hdelta, hcfg]
  by_cases hdup : pkt.isBareAck ∧ (AckTrack.of pkt.dir found).last = some pkt.ack
  · rw [if_pos hdup, Prod.mk.injEq] at hflags
    rw [hflags.1, hflags.2]
    by_cases hcount :
        (AckTrack.of pkt.dir found).repeats + 1 = e.state.cfg.dupAckThreshold
    · rw [if_pos ⟨rfl, hcount⟩, if_pos ⟨hdup.1, hdup.2, hcount⟩, ← hcount]
      rfl
    · rw [if_neg (by tauto), if_neg (by tauto)]
      rfl
  · rw [if_neg hdup, Prod.mk.injEq] at hflags
    rw [hflags.1, if_neg (by simp), if_neg (by tauto)]
    rfl

/-- A call that is no bare ACK raises no duplicate-ACK alert. -/
theorem dupAck_quiet {e : Engine F} {d : Debounces} (hd : e.detectors = d.chain) {c : Call}
    (hc : ∀ pkt, c = .process pkt → pkt.isBareAck = false) :
    alerts .duplicateAck (machine.step e c).2 = [] := by
  cases c with
  | sweep now => exact alerts_sweep _ _ (by decide)
  | process pkt =>
      have hvalues := dupAck_process hd pkt rfl
      rw [if_neg (by simp [hc pkt rfl])] at hvalues
      exact List.map_eq_nil_iff.1 hvalues

end Engine

/-- **One alert for each burst of duplicate ACKs.**  Along a run that keeps the flow, the bare
ACKs of a direction raise the alert at the place `T` of each block of equal
acknowledgement numbers, counted from 0, with the value `T`, and nowhere else; no other
call raises it. -/
theorem dupAck_blocks (cfg : DetectConfig F) (k : FlowKey) (dir : Direction) (calls : List Call)
    (hT : 0 < cfg.dupAckThreshold.toNat) (hkept : Keeps k (Engine.machine.log (.new cfg) calls))
    (hblocks : ∀ b ∈ (bareAcks k dir (Engine.machine.log (.new cfg) calls)).splitBy (· == ·),
      b.length < 2 ^ 32) :
    ((Engine.machine.log (.new cfg) calls).filterMap fun e =>
        (recordOn k (ackRecord dir) e).map fun _ => alertValues .duplicateAck e)
      = ((bareAcks k dir (Engine.machine.log (.new cfg) calls)).splitBy (· == ·)).flatMap
        (fun b => b.mapIdx fun i _ => if i = cfg.dupAckThreshold.toNat then
          [(k, F64.ofU64 cfg.dupAckThreshold.toNat)] else []) ∧
    ∀ e ∈ Engine.machine.log (.new cfg) calls,
      (∀ pkt, e.input = .process pkt → pkt.isBareAck = false) →
        Engine.alerts .duplicateAck e.output = [] := by
  constructor
  · apply Engine.blockMap_run (f := fun _ i => if i = cfg.dupAckThreshold.toNat then
      [(k, F64.ofU64 cfg.dupAckThreshold.toNat)] else [])
    rintro pre pkt post ack rfl rfl hrecord
    obtain ⟨d, hd⟩ := Engine.detectors_after cfg pre
    -- the counter is the fold over the bare ACKs before, read by their last block
    have htrack := Engine.kept_fold (ackTrack_sweepFlow dir)
      (ackTrack_flowStep dir) cfg pkt.key pre (Engine.keeps_prefix hkept)
    have hnone : AckTrack.of dir none = ⟨none, 0⟩ := rfl
    rw [hnone, AckTrack.foldl_step] at htrack
    obtain ⟨hbare, rfl, rfl⟩ : pkt.isBareAck = true ∧ pkt.dir = dir ∧ pkt.ack = ack := by
      simp only [ackRecord, Bool.and_eq_true, decide_eq_true_eq] at hrecord
      split_ifs at hrecord with h
      exact ⟨h.1, h.2, Option.some.inj hrecord⟩
    -- the block in progress is too short for the counter to wrap
    have hlen : Blocks.blockLen (bareAcks pkt.key pkt.dir (Engine.machine.log (.new cfg) pre))
        < 2 ^ 32 := by
      apply Blocks.blockLen_lt (by norm_num)
      rw [bareAcks, Machine.log_append, List.filterMap_append, ← bareAcks] at hblocks
      exact Blocks.length_lt_of_append hblocks
    rw [Engine.dupAck_process hd pkt rfl, htrack, Engine.cfg_after]
    exact if_congr (AckTrack.at_place_iff hbare hT hlen) rfl rfl
  · intro e he hquiet
    obtain ⟨pre, post, -, hstate, hout⟩ := (Machine.mem_log _).1 he
    obtain ⟨d, hd⟩ := Engine.detectors_after cfg pre
    rw [hout]
    exact Engine.dupAck_quiet (hstate ▸ hd) hquiet

namespace Sample

/-- Five bare ACKs of one number, a data segment and an ACK of the other direction between. -/
def ackBurst : List Call :=
  let c := ep 1 5000
  let srv := ep 2 80
  let ack (t : ℕ) : Call := .process (tcp t c srv TcpFlags.ACK 10 700 100 0)
  [ack 1, ack 2, .process (tcp 3 srv c TcpFlags.ACK 700 10 100 0), ack 4,
    .process (tcp 5 c srv TcpFlags.ACK 10 700 100 20), ack 6, .sweep 7, ack 8]

/-- The flow of the sample. -/
def ackKey : FlowKey := (FlowKey.canonical (ep 1 5000) (ep 2 80) .tcp).1

end Sample

/-- One alert, at the fourth ACK of the five. -/
theorem ackBurst_alerts :
    ((Engine.machine.log (.new (DetectConfig.default ℚ)) Sample.ackBurst).filterMap fun e =>
        (recordOn Sample.ackKey (ackRecord .forward) e).map fun _ => alertValues .duplicateAck e)
      = [[], [], [], [(Sample.ackKey, 3)], []] := by
  have hblocks := (dupAck_blocks (DetectConfig.default ℚ) Sample.ackKey .forward Sample.ackBurst
    (by decide) (by unfold Keeps; decide +kernel) (by decide +kernel)).1
  rw [hblocks]
  decide +kernel
