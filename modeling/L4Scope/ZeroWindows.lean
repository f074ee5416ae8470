/-
# Zero windows, block by block

On an active flow the segments of a direction split into maximal blocks with a zero and with
a nonzero window.  The flow remembers which kind the last one was, and the alert is
raised at the first segment of each block with a zero window (`zeroWindow_blocks`), whatever
comes in between.
-/
import L4Scope.KeptFlow

/-! ## The flow remembers the last window -/

/-- The flow is established or closing. -/
def FlowState.isActive (f : FlowState) : Bool := f.established || f.state = .closing

/-- TCP without SYN and RST. -/
def PacketMeta.isSegment (pkt : PacketMeta) : Bool :=
  pkt.proto = .tcp && !pkt.flags.syn && !pkt.flags.rst

/-- The zero-window part of the flow and of the delta. -/
def Work.zeros (w : Work) : PerDir Bool × Bool := (w.flow.zeroWindow, w.d.zeroWindowEdge)

/-- The zero-window part, of the data part. -/
def DataPart.zeros (p : DataPart) : PerDir Bool × Bool := (p.zeroWindow, p.zeroWindowEdge)

section Arms

variable (pkt : PacketMeta) (w : Work)

/-- The tracking of data leaves the window alone. -/
theorem zeros_trackSegment : (trackSegment pkt w).zeros = w.zeros := by
  unfold trackSegment
  dsimp only
  split_ifs
  · cases w.flow.nextSeq.get pkt.dir with
    | none => rfl
    | some exp =>
        dsimp only
        split_ifs <;> rfl
  · rfl

/-- So does the tracking of acknowledgements. -/
theorem zeros_trackDupAck : (trackDupAck pkt w).zeros = w.zeros := by
  unfold trackDupAck
  split_ifs <;> rfl

/-- The block on an active flow: the window is remembered, and reported if it just closed. -/
theorem zeros_zeroWindowEdge : (zeroWindowEdge pkt w).zeros
    = if w.flow.isActive then
        (w.flow.zeroWindow.set pkt.dir (pkt.window == 0),
          (pkt.window == 0 && !w.flow.zeroWindow.get pkt.dir) || w.d.zeroWindowEdge)
      else w.zeros := by
  unfold zeroWindowEdge
  simp only [FlowState.isActive, Bool.or_eq_true, decide_eq_true_eq]
  by_cases h : w.flow.established = true ∨ w.flow.state = .closing
  · rw [if_pos h, if_pos h]
    cases pkt.window == 0 && !w.flow.zeroWindow.get pkt.dir <;> rfl
  · rw [if_neg h, if_neg h]

/-- The last arm ends active exactly if its connection-state blocks do. -/
theorem isActive_onSegment : (onSegment pkt w).flow.isActive
    = (closeOnFin pkt (completeHandshake pkt w)).flow.isActive :=
  congrArg (fun w => w.flow.isActive) (eraseData_onSegment pkt w)

/-- Ingesting a packet: a segment that leaves the flow active is remembered. -/
theorem zeros_ingest : (ingest pkt w).zeros
    = if pkt.isSegment && (ingest pkt w).flow.isActive then
        (w.flow.zeroWindow.set pkt.dir (pkt.window == 0),
          (pkt.window == 0 && !w.flow.zeroWindow.get pkt.dir) || w.d.zeroWindowEdge)
      else w.zeros := by
  have hpart : (ingest pkt w).zeros = _ := congrArg DataPart.zeros (dataPart_ingest pkt w)
  rw [hpart, PacketMeta.isSegment]
  by_cases hproto : pkt.proto = .tcp
  · rw [if_pos hproto, hproto]
    cases hsyn : pkt.flags.syn with
    | true => simp [DataPart.zeros, Work.dataPart, expectAfterSyn, Work.zeros]
    | false =>
        cases hrst : pkt.flags.rst with
        | true => simp [DataPart.zeros, Work.dataPart, Work.zeros]
        | false =>
            let w' : Work := { w with flow := { w.flow with lastSeenNs := pkt.tsNanos } }
            have hbefore : (closeOnFin pkt (completeHandshake pkt w')).zeros = w.zeros :=
              congrArg DataPart.zeros (dataPart_connection pkt w')
            have hwindow := congrArg Prod.fst hbefore
            have hedge := congrArg Prod.snd hbefore
            simp only [Work.zeros] at hwindow hedge
            have hingest : ingest pkt w = onSegment pkt w' := by
              rw [ingest, if_pos hproto, updateTcp, TcpFlags.isSynOnly, TcpFlags.isSynAck, hsyn,
                hrst]
              rfl
            simp only [Bool.false_eq_true, if_false, decide_true, Bool.not_false, Bool.true_and,
              hingest, isActive_onSegment]
            show (onSegment pkt w').zeros = _
            rw [onSegment, zeros_trackDupAck, zeros_trackSegment, zeros_zeroWindowEdge, hwindow,
              hedge, hbefore]
  · rw [if_neg hproto, decide_eq_false hproto]
    rfl

end Arms

/-- Whether the last window of a direction was zero, of what the table holds. -/
def zeroOf (dir : Direction) (found : Option FlowState) : Bool :=
  (found.map fun f => f.zeroWindow.get dir).getD false

/-- Whether the window is zero, of a segment of the direction that leaves its flow active. -/
def zeroRecord (dir : Direction) (pkt : PacketMeta) (found : Option FlowState) : Option Bool :=
  if pkt.isSegment && (flowStep pkt found).1.isActive && pkt.dir = dir then some (pkt.window == 0)
  else none

/-- A new flow has no closed window. -/
theorem zeroOf_flowEntry (dir : Direction) (pkt : PacketMeta) (found : Option FlowState)
    (g : Globals) : zeroOf dir found = (flowEntry pkt found g).flow.zeroWindow.get dir := by
  cases found with
  | none => cases dir <;> rfl
  | some f => rfl

/-- A packet changes the last window of a direction if it is such a segment. -/
theorem zeroOf_flowStep (dir : Direction) (pkt : PacketMeta) (found : Option FlowState) :
    zeroOf dir (some (flowStep pkt found).1)
      = (zeroRecord dir pkt found).elim (zeroOf dir found) fun z => z := by
  let w := flowEntry pkt found Globals.new
  have hzeros := congrArg Prod.fst (zeros_ingest pkt w)
  have hnew : zeroOf dir (some (flowStep pkt found).1) = (ingest pkt w).zeros.1.get dir := rfl
  have hactive : (ingest pkt w).flow.isActive = (flowStep pkt found).1.isActive := rfl
  rw [hnew, hzeros, zeroOf_flowEntry dir pkt found Globals.new, zeroRecord, hactive]
  cases hseg : pkt.isSegment && (flowStep pkt found).1.isActive with
  | false => rfl
  | true =>
      by_cases hdir : pkt.dir = dir
      · subst hdir
        simp
      · simp [hdir, PerDir.get_set_ne _ _ (Ne.symm hdir), w]

/-- The delta of a packet: the window of its direction just closed. -/
theorem zeroWindowEdge_flowStep (pkt : PacketMeta) (found : Option FlowState) :
    (flowStep pkt found).2.zeroWindowEdge
      = (pkt.isSegment && (flowStep pkt found).1.isActive
        && (pkt.window == 0 && !zeroOf pkt.dir found)) := by
  let w := flowEntry pkt found Globals.new
  have hfresh : w.d.zeroWindowEdge = false := by cases found <;> rfl
  have hdelta : (flowStep pkt found).2.zeroWindowEdge = (ingest pkt w).zeros.2 := rfl
  have hactive : (ingest pkt w).flow.isActive = (flowStep pkt found).1.isActive := rfl
  rw [hdelta, zeros_ingest, zeroOf_flowEntry pkt.dir pkt found Globals.new, hactive]
  cases pkt.isSegment && (flowStep pkt found).1.isActive with
  | false => exact hfresh
  | true => simp [hfresh, w]

/-- Sweeps leave the last windows of the flows they keep. -/
theorem zeroOf_sweepFlow {F : Type} [F64 F] (dir : Direction) (cfg : DetectConfig F) (now : ℕ)
    (f f' : FlowState) (h : sweepFlow cfg now f = some f') :
    zeroOf dir (some f') = zeroOf dir (some f) := by
  unfold sweepFlow at h
  split_ifs at h <;> rw [← Option.some.inj h]
  rfl

/-! ## One alert for each stall -/

variable {F : Type} [F64 F]

/-- Whether the window is zero, of the segments of a direction that leave the flow active. -/
def windows (k : FlowKey) (dir : Direction) (log : List (CallEntry F)) : List Bool :=
  log.filterMap (recordOn k (zeroRecord dir))

namespace Engine

/-- The zero-window alert of a packet. -/
theorem zeroWindow_process {e : Engine F} {d : Debounces} (hd : e.detectors = d.chain)
    (pkt : PacketMeta) {found : Option FlowState} (hfound : e.state.flows.lookup pkt.key = found) :
    alertValues .zeroWindow (⟨e, .process pkt, (e.process pkt).2⟩ : CallEntry F)
      = if pkt.isSegment && (flowStep pkt found).1.isActive
            && (pkt.window == 0 && !zeroOf pkt.dir found) then
          [(pkt.key, F64.ofDecimal 0 0)]
        else [] := by
  have hone : (e.detectors.filter fun x => x.kind = .zeroWindow) = [.zeroWindow] := by
    rw [hd]
    rfl
  have hdelta : (e.ctx pkt).delta = (flowStep pkt found).2 := by
    rw [← hfound]
    exact EngineState.update_delta e.state pkt
  rw [alertValues, alerts_process_one (by decide) hone]
  simp only [Detector.inspect, inspectZeroWindow, hdelta, zeroWindowEdge_flowStep]
  cases pkt.isSegment && (flowStep pkt found).1.isActive
    && (pkt.window == 0 && !zeroOf pkt.dir found) <;> rfl

/-- A call that is no such segment raises no zero-window alert. -/
theorem zeroWindow_quiet {e : Engine F} {d : Debounces} (hd : e.detectors = d.chain) {c : Call}
    (hc : ∀ pkt, c = .process pkt →
      (pkt.isSegment && (flowStep pkt (e.state.flows.lookup pkt.key)).1.isActive) = false) :
    alerts .zeroWindow (machine.step e c).2 = [] := by
  cases c with
  | sweep now => exact alerts_sweep _ _ (by decide)
  | process pkt =>
      have hvalues := zeroWindow_process hd pkt rfl
      rw [hc pkt rfl] at hvalues
      exact List.map_eq_nil_iff.1 hvalues

end Engine

/-- A window is zero and the one before was not, at the first place of its block. -/
theorem justClosed_iff (zs : List Bool) (z : Bool) :
    (z && !(zs.getLast?.getD false)) = (z && decide (Blocks.place zs z = 0)) := by
  cases z with
  | false => rfl
  | true =>
      rw [Blocks.place]
      by_cases h : zs.getLast? = some true
      · have hpos := Blocks.blockLen_pos h
        rw [if_pos h, h, decide_eq_false (by omega)]
        rfl
      · rw [if_neg h]
        cases hlast : zs.getLast? with
        | none => rfl
        | some z =>
            cases z with
            | false => rfl
            | true => exact absurd hlast h

/-- One element of each block of `true` is marked. -/
theorem length_flatten_marks {β : Type} (mark : β) {blocks : List (List Bool)}
    (hnil : [] ∉ blocks) :
    (blocks.flatMap fun b => b.mapIdx fun i z =>
        if z && decide (i = 0) then [mark] else []).flatten.length
      = blocks.countP fun b => b.head? = some true := by
  induction blocks with
  | nil => rfl
  | cons b blocks ih =>
      rw [List.mem_cons, not_or] at hnil
      have ih := ih hnil.2
      obtain ⟨z, b, rfl⟩ := List.exists_cons_of_ne_nil (Ne.symm hnil.1)
      have hrest : (b.mapIdx fun i z => if z && decide (i + 1 = 0) then [mark] else []).flatten
          = [] := by
        simp
      rw [List.flatMap_cons, List.flatten_append, List.length_append, ih, List.countP_cons,
        List.mapIdx_cons, List.flatten_cons, List.length_append, hrest]
      cases z <;> simp [Nat.add_comm]

/-- **One alert for each stall.**  Along a run that keeps the flow, the segments of a direction
that leave it established or closing raise the alert at the first place of each block of zero
windows, and nowhere else: once for each such block.  No other call raises it. -/
theorem zeroWindow_blocks (cfg : DetectConfig F) (k : FlowKey) (dir : Direction)
    (calls : List Call) (hkept : Keeps k (Engine.machine.log (.new cfg) calls)) :
    ((Engine.machine.log (.new cfg) calls).filterMap fun e =>
        (recordOn k (zeroRecord dir) e).map fun _ => alertValues .zeroWindow e)
      = ((windows k dir (Engine.machine.log (.new cfg) calls)).splitBy (· == ·)).flatMap
        (fun b => b.mapIdx fun i z =>
          if z && decide (i = 0) then [(k, F64.ofDecimal 0 0)] else []) ∧
    ((Engine.machine.log (.new cfg) calls).filterMap fun e =>
        (recordOn k (zeroRecord dir) e).map fun _ => alertValues .zeroWindow e).flatten.length
      = ((windows k dir (Engine.machine.log (.new cfg) calls)).splitBy (· == ·)).countP
        (fun b => b.head? = some true) ∧
    ∀ e ∈ Engine.machine.log (.new cfg) calls,
      (∀ pkt, e.input = .process pkt → (pkt.isSegment
        && (flowStep pkt (e.state.state.flows.lookup pkt.key)).1.isActive) = false) →
        Engine.alerts .zeroWindow e.output = [] := by
  have hblocks : ((Engine.machine.log (.new cfg) calls).filterMap fun e =>
        (recordOn k (zeroRecord dir) e).map fun _ => alertValues .zeroWindow e)
      = ((windows k dir (Engine.machine.log (.new cfg) calls)).splitBy (· == ·)).flatMap
        (fun b => b.mapIdx fun i z =>
          if z && decide (i = 0) then [(k, F64.ofDecimal 0 0)] else []) := by
    apply Engine.blockMap_run (f := fun z i =>
      if z && decide (i = 0) then [(k, F64.ofDecimal 0 0)] else [])
    rintro pre pkt post z rfl rfl hrecord
    obtain ⟨d, hd⟩ := Engine.detectors_after cfg pre
    -- the flag of the direction is what its last counted segment showed
    have hzero := Engine.kept_fold (g := fun _ z => z) (zeroOf_sweepFlow dir)
      (zeroOf_flowStep dir) cfg pkt.key pre (Engine.keeps_prefix hkept)
    have hlast (zs : List Bool) : zs.foldl (fun _ z => z) false = zs.getLast?.getD false := by
      induction zs using List.reverseRecOn with
      | nil => rfl
      | append_singleton zs z ih => simp
    obtain ⟨hseg, rfl, rfl⟩ : (pkt.isSegment && (flowStep pkt
        ((Engine.machine.after (.new cfg) pre).state.flows.lookup pkt.key)).1.isActive) = true ∧
          pkt.dir = dir ∧ (pkt.window == 0) = z := by
      simp only [zeroRecord, Bool.and_eq_true, decide_eq_true_eq] at hrecord ⊢
      split_ifs at hrecord with h
      exact ⟨h.1, h.2, Option.some.inj hrecord⟩
    have hnone : zeroOf pkt.dir none = false := rfl
    rw [hnone, hlast] at hzero
    rw [Engine.zeroWindow_process hd pkt rfl, hseg, hzero, Bool.true_and, justClosed_iff]
  refine ⟨hblocks, ?_, ?_⟩
  · rw [hblocks]
    exact length_flatten_marks _ (List.nil_notMem_splitBy _ _)
  · intro e he hquiet
    obtain ⟨pre, post, -, hstate, hout⟩ := (Machine.mem_log _).1 he
    obtain ⟨d, hd⟩ := Engine.detectors_after cfg pre
    rw [hout]
    exact Engine.zeroWindow_quiet (hstate ▸ hd) hquiet

namespace Sample

/-- A handshake and two stalls of the server, the second after the client's FIN; in between a
full window of the client, a sweep and a retransmitted SYN-ACK. -/
def stalls : List Call :=
  let c := ep 1 5000
  let srv := ep 2 80
  let up (t : ℕ) (flags : UInt8) (window : UInt32) : Call :=
    .process (tcp t c srv flags 10 700 window 0)
  let down (t : ℕ) (flags : UInt8) (window : UInt32) : Call :=
    .process (tcp t srv c flags 700 10 window 0)
  [up 1 TcpFlags.SYN 0, down 2 (TcpFlags.SYN ||| TcpFlags.ACK) 0, up 3 TcpFlags.ACK 0,
    down 4 TcpFlags.ACK 0, down 5 TcpFlags.ACK 0, .sweep 6, down 7 TcpFlags.ACK 90,
    up 8 (TcpFlags.FIN ||| TcpFlags.ACK) 100, down 9 (TcpFlags.SYN ||| TcpFlags.ACK) 0,
    down 10 TcpFlags.ACK 0]

/-- The flow of the sample. -/
def stallKey : FlowKey := (FlowKey.canonical (ep 1 5000) (ep 2 80) .tcp).1

end Sample

/-- One alert for each time the window closes. -/
theorem stalls_alerts :
    ((Engine.machine.log (.new (DetectConfig.default ℚ)) Sample.stalls).filterMap fun e =>
        (recordOn Sample.stallKey (zeroRecord .reverse) e).map fun _ =>
          alertValues .zeroWindow e)
      = [[(Sample.stallKey, 0)], [], [], [(Sample.stallKey, 0)]] := by
  have hblocks := (zeroWindow_blocks (DetectConfig.default ℚ) Sample.stallKey .reverse
    Sample.stalls (by unfold Keeps; decide +kernel)).1
  rw [hblocks]
  decide +kernel
