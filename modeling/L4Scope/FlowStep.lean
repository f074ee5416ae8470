/-
# One flow at a time

What an operation does to one flow depends on that flow alone.  `flowStep` is the
effect of a packet on the entry of its key, `sweepFlow` the effect of a sweep on any
entry; `lookup_update`, `update_delta`, `lookup_sweep` and `mem_sweep_events` say that
the flow table, the deltas and the timeout events are these effects, key by key.
-/
import L4Scope.Runs

variable {F : Type}

/-! ## `update` on one flow -/

/-- Two work states that differ in the host-wide counters at most. -/
def Work.SameFlow (w w' : Work) : Prop := w.flow = w'.flow ∧ w.d = w'.d

namespace Work

/-- Clearing the mark moves the flow whatever the counters are. -/
theorem clear_sameFlow {w w' : Work} (h : w.SameFlow w') : w.clear.SameFlow w'.clear := by
  obtain ⟨flow, g, d⟩ := w
  obtain ⟨flow', g', d'⟩ := w'
  obtain ⟨rfl, rfl⟩ := h
  simp only [clear, clearHalfOpen]
  split <;> exact ⟨rfl, rfl⟩

end Work

section SameFlow

variable {pkt : PacketMeta} {w w' : Work}

/-- The SYN arm does not read the counters. -/
theorem onSynOnly_sameFlow (h : w.SameFlow w') : (onSynOnly pkt w).SameFlow (onSynOnly pkt w') := by
  obtain ⟨flow, g, d⟩ := w
  obtain ⟨flow', g', d'⟩ := w'
  obtain ⟨rfl, rfl⟩ := h
  simp only [onSynOnly, expectAfterSyn]
  split_ifs <;> exact ⟨rfl, rfl⟩

/-- Nor does the SYN-ACK arm. -/
theorem onSynAck_sameFlow (h : w.SameFlow w') : (onSynAck pkt w).SameFlow (onSynAck pkt w') := by
  obtain ⟨flow, g, d⟩ := w
  obtain ⟨flow', g', d'⟩ := w'
  obtain ⟨rfl, rfl⟩ := h
  simp only [onSynAck, expectAfterSyn]
  cases flow.synTimeNs <;> exact ⟨rfl, rfl⟩

/-- Nor does the RST arm. -/
theorem onRst_sameFlow (h : w.SameFlow w') : (onRst pkt w).SameFlow (onRst pkt w') := by
  obtain ⟨flow, g, d⟩ := w
  obtain ⟨flow', g', d'⟩ := w'
  obtain ⟨rfl, rfl⟩ := h
  simp only [onRst]
  split_ifs <;> exact Work.clear_sameFlow ⟨rfl, rfl⟩

/-- Nor does the end of a handshake. -/
theorem completeHandshake_sameFlow (h : w.SameFlow w') :
    (completeHandshake pkt w).SameFlow (completeHandshake pkt w') := by
  obtain ⟨flow, g, d⟩ := w
  obtain ⟨flow', g', d'⟩ := w'
  obtain ⟨rfl, rfl⟩ := h
  simp only [completeHandshake]
  split_ifs
  · exact Work.clear_sameFlow ⟨rfl, rfl⟩
  · exact ⟨rfl, rfl⟩

/-- Nor does a FIN. -/
theorem closeOnFin_sameFlow (h : w.SameFlow w') :
    (closeOnFin pkt w).SameFlow (closeOnFin pkt w') := by
  obtain ⟨flow, g, d⟩ := w
  obtain ⟨flow', g', d'⟩ := w'
  obtain ⟨rfl, rfl⟩ := h
  simp only [closeOnFin]
  split_ifs
  · exact Work.clear_sameFlow ⟨rfl, rfl⟩
  · exact ⟨rfl, rfl⟩

/-- Nor does the window check. -/
theorem zeroWindowEdge_sameFlow (h : w.SameFlow w') :
    (zeroWindowEdge pkt w).SameFlow (zeroWindowEdge pkt w') := by
  obtain ⟨flow, g, d⟩ := w
  obtain ⟨flow', g', d'⟩ := w'
  obtain ⟨rfl, rfl⟩ := h
  simp only [zeroWindowEdge]
  split_ifs <;> exact ⟨rfl, rfl⟩

/-- Nor does the tracking of data. -/
theorem trackSegment_sameFlow (h : w.SameFlow w') :
    (trackSegment pkt w).SameFlow (trackSegment pkt w') := by
  obtain ⟨flow, g, d⟩ := w
  obtain ⟨flow', g', d'⟩ := w'
  obtain ⟨rfl, rfl⟩ := h
  simp only [trackSegment]
  split_ifs
  · cases flow.nextSeq.get pkt.dir with
    | none => exact ⟨rfl, rfl⟩
    | some exp =>
        dsimp only
        split_ifs <;> exact ⟨rfl, rfl⟩
  · exact ⟨rfl, rfl⟩

/-- Nor does the tracking of acknowledgements. -/
theorem trackDupAck_sameFlow (h : w.SameFlow w') :
    (trackDupAck pkt w).SameFlow (trackDupAck pkt w') := by
  obtain ⟨flow, g, d⟩ := w
  obtain ⟨flow', g', d'⟩ := w'
  obtain ⟨rfl, rfl⟩ := h
  simp only [trackDupAck]
  split_ifs <;> exact ⟨rfl, rfl⟩

/-- The flow and the delta after a packet do not depend on the host-wide counters. -/
theorem ingest_sameFlow (h : w.SameFlow w') : (ingest pkt w).SameFlow (ingest pkt w') := by
  have h0 : Work.SameFlow { w with flow := { w.flow with lastSeenNs := pkt.tsNanos } }
      { w' with flow := { w'.flow with lastSeenNs := pkt.tsNanos } } :=
    ⟨by rw [h.1], h.2⟩
  rw [ingest, ingest]
  split_ifs
  · rw [updateTcp, updateTcp]
    split_ifs
    · exact onSynOnly_sameFlow h0
    · exact onSynAck_sameFlow h0
    · exact onRst_sameFlow h0
    · exact trackDupAck_sameFlow (trackSegment_sameFlow (zeroWindowEdge_sameFlow
        (closeOnFin_sameFlow (completeHandshake_sameFlow h0))))
  · exact h0

end SameFlow

/-! ## The data arms -/

/-- The working state without what concerns data segments, duplicate ACKs and windows. -/
def Work.eraseData (w : Work) : Work where
  flow := { w.flow with
    nextSeq := ⟨none, none⟩
    lastAck := ⟨none, none⟩
    dupAckCount := ⟨0, 0⟩
    zeroWindow := ⟨false, false⟩
    retransmits := 0
    dataSegments := 0 }
  globals := w.globals
  d := { w.d with
    isRetransmit := false
    isOutOfOrder := false
    isDupAck := false
    dupAckCount := 0
    zeroWindowEdge := false }

section EraseData

variable (pkt : PacketMeta) (w : Work)

/-- The window check is a matter of the data part. -/
theorem eraseData_zeroWindowEdge : (zeroWindowEdge pkt w).eraseData = w.eraseData := by
  unfold zeroWindowEdge
  split_ifs <;> rfl

/-- So is the tracking of data. -/
theorem eraseData_trackSegment : (trackSegment pkt w).eraseData = w.eraseData := by
  unfold trackSegment
  dsimp only
  split_ifs
  · cases w.flow.nextSeq.get pkt.dir with
    | none => rfl
    | some exp =>
        dsimp only
        split_ifs <;> rfl
  · rfl

/-- So is the tracking of acknowledgements. -/
theorem eraseData_trackDupAck : (trackDupAck pkt w).eraseData = w.eraseData := by
  unfold trackDupAck
  split_ifs <;> rfl

/-- The last arm after the connection state: only data, duplicate ACKs and windows change. -/
theorem eraseData_onSegment :
    (onSegment pkt w).eraseData = (closeOnFin pkt (completeHandshake pkt w)).eraseData := by
  rw [onSegment, eraseData_trackDupAck, eraseData_trackSegment, eraseData_zeroWindowEdge]

end EraseData

/-! ## The connection arms -/

/-- What concerns data segments, duplicate ACKs and windows: what `eraseData` drops. -/
structure DataPart where
  nextSeq : PerDir (Option UInt32)
  lastAck : PerDir (Option UInt32)
  dupAckCounts : PerDir UInt32
  zeroWindow : PerDir Bool
  retransmits : ℕ
  dataSegments : ℕ
  isRetransmit : Bool
  isOutOfOrder : Bool
  isDupAck : Bool
  dupAckCount : UInt32
  zeroWindowEdge : Bool

/-- The part of the work in progress that data and acknowledgements move. -/
def Work.dataPart (w : Work) : DataPart where
  nextSeq := w.flow.nextSeq
  lastAck := w.flow.lastAck
  dupAckCounts := w.flow.dupAckCount
  zeroWindow := w.flow.zeroWindow
  retransmits := w.flow.retransmits
  dataSegments := w.flow.dataSegments
  isRetransmit := w.d.isRetransmit
  isOutOfOrder := w.d.isOutOfOrder
  isDupAck := w.d.isDupAck
  dupAckCount := w.d.dupAckCount
  zeroWindowEdge := w.d.zeroWindowEdge

section DataPart

variable (pkt : PacketMeta) (w : Work)

/-- Clearing the mark leaves the data part alone. -/
theorem Work.dataPart_clear : w.clear.dataPart = w.dataPart := by
  unfold Work.clear clearHalfOpen
  split_ifs <;> rfl

/-- A SYN moves the expected sequence number only. -/
theorem dataPart_onSynOnly : (onSynOnly pkt w).dataPart = (expectAfterSyn pkt w).dataPart := by
  unfold onSynOnly
  dsimp only
  split_ifs <;> rfl

/-- So does a SYN-ACK. -/
theorem dataPart_onSynAck : (onSynAck pkt w).dataPart = (expectAfterSyn pkt w).dataPart := by
  unfold onSynAck
  dsimp only
  cases w.flow.synTimeNs <;> rfl

/-- A reset leaves the data part alone. -/
theorem dataPart_onRst : (onRst pkt w).dataPart = w.dataPart := by
  unfold onRst
  dsimp only
  split_ifs <;> rw [Work.dataPart_clear] <;> rfl

/-- So does the end of a handshake. -/
theorem dataPart_completeHandshake : (completeHandshake pkt w).dataPart = w.dataPart := by
  unfold completeHandshake
  split_ifs
  · rw [Work.dataPart_clear]
    rfl
  · rfl

/-- So does a FIN. -/
theorem dataPart_closeOnFin : (closeOnFin pkt w).dataPart = w.dataPart := by
  unfold closeOnFin
  split_ifs
  · rw [Work.dataPart_clear]
    rfl
  · rfl

/-- The blocks of the last arm in front of the data blocks. -/
theorem dataPart_connection :
    (closeOnFin pkt (completeHandshake pkt w)).dataPart = w.dataPart := by
  rw [dataPart_closeOnFin, dataPart_completeHandshake]

/-- **Only SYNs and segments** touch the data part: the first set the expected number, the
others go through the data blocks. -/
theorem dataPart_ingest : (ingest pkt w).dataPart
    = if pkt.proto = .tcp then
        if pkt.flags.syn then (expectAfterSyn pkt w).dataPart
        else if pkt.flags.rst then w.dataPart
        else (onSegment pkt { w with flow := { w.flow with lastSeenNs := pkt.tsNanos } }).dataPart
      else w.dataPart := by
  unfold ingest
  dsimp only
  by_cases hproto : pkt.proto = .tcp
  · rw [if_pos hproto, if_pos hproto, updateTcp, TcpFlags.isSynOnly, TcpFlags.isSynAck]
    cases pkt.flags.syn with
    | true =>
        cases pkt.flags.ack with
        | false => exact dataPart_onSynOnly pkt _
        | true => exact dataPart_onSynAck pkt _
    | false =>
        cases pkt.flags.rst with
        | true => exact dataPart_onRst pkt _
        | false => rfl
  · rw [if_neg hproto, if_neg hproto]
    rfl

end DataPart

/-! ## What no arm touches -/

/-- The parts of a flow that the arms of `update` leave alone. -/
def FlowState.frame (f : FlowState) : (Protocol × ℕ) × (ℕ × Endpoint) :=
  ((f.proto, f.firstSeenNs), (f.lastSeenNs, f.service))

section Frame

variable (pkt : PacketMeta) (w : Work)

theorem Work.frame_clear : w.clear.flow.frame = w.flow.frame := by
  unfold Work.clear clearHalfOpen
  split_ifs <;> rfl

/-- The last arm keeps the frame. -/
theorem frame_onSegment : (onSegment pkt w).flow.frame = w.flow.frame := by
  have hcomplete : (completeHandshake pkt w).flow.frame = w.flow.frame := by
    unfold completeHandshake
    split_ifs
    · rw [Work.frame_clear]
      rfl
    · rfl
  have hclose : ∀ w : Work, (closeOnFin pkt w).flow.frame = w.flow.frame := by
    intro w
    unfold closeOnFin
    split_ifs
    · rw [Work.frame_clear]
      rfl
    · rfl
  have hdata : (onSegment pkt w).flow.frame
      = (closeOnFin pkt (completeHandshake pkt w)).flow.frame :=
    congrArg (fun w => w.flow.frame) (eraseData_onSegment pkt w)
  rw [hdata, hclose, hcomplete]

/-- A packet sets the time of the frame. -/
theorem frame_ingest : (ingest pkt w).flow.frame
    = { w.flow with lastSeenNs := pkt.tsNanos }.frame := by
  unfold ingest
  dsimp only
  split_ifs
  · unfold updateTcp
    split_ifs
    · unfold onSynOnly
      dsimp only
      split_ifs <;> rfl
    · unfold onSynAck
      dsimp only
      cases w.flow.synTimeNs <;> rfl
    · unfold onRst
      dsimp only
      split_ifs <;> rw [Work.frame_clear] <;> rfl
    · rw [frame_onSegment]
  · rfl

end Frame

namespace FlowState

/-- The frame has the time. -/
theorem lastSeenNs_of_frame {f f' : FlowState} (h : f'.frame = f.frame) :
    f'.lastSeenNs = f.lastSeenNs := congrArg (fun r => r.2.1) h

/-- The frame has the service. -/
theorem service_of_frame {f f' : FlowState} (h : f'.frame = f.frame) :
    f'.service = f.service := congrArg (fun r => r.2.2) h

end FlowState

/-! ## The step of one flow -/

/-- The flow after a packet and the delta of the packet, from what the table holds
under its key. -/
def flowStep (pkt : PacketMeta) (found : Option FlowState) : FlowState × PacketDelta :=
  let w := ingest pkt (flowEntry pkt found Globals.new)
  (w.flow, { w.d with service := some w.flow.service })

/-- What becomes of a flow does not depend on the counters. -/
theorem ingest_flowEntry_sameFlow (pkt : PacketMeta) (found : Option FlowState) (g g' : Globals) :
    (ingest pkt (flowEntry pkt found g)).SameFlow (ingest pkt (flowEntry pkt found g')) := by
  apply ingest_sameFlow
  cases found <;> exact ⟨rfl, rfl⟩

/-- A packet is the last one seen of its flow. -/
theorem flowStep_lastSeenNs (pkt : PacketMeta) (found : Option FlowState) :
    (flowStep pkt found).1.lastSeenNs = pkt.tsNanos :=
  congrArg (fun r => r.2.1) (frame_ingest pkt (flowEntry pkt found Globals.new))

/-- The service of a flow is fixed by the packet that inserts it. -/
theorem flowStep_service (pkt : PacketMeta) (found : Option FlowState) :
    (flowStep pkt found).1.service = (found.map FlowState.service).getD (guessService pkt) := by
  have h := congrArg (fun r => r.2.2) (frame_ingest pkt (flowEntry pkt found Globals.new))
  cases found <;> exact h

namespace EngineState

/-- A packet replaces its flow by the step of that flow. -/
theorem update_flows (s : EngineState F) (pkt : PacketMeta) :
    (s.update pkt).1.flows
      = s.flows.insert pkt.key (flowStep pkt (s.flows.lookup pkt.key)).1 := by
  rw [update, flowStep, (ingest_flowEntry_sameFlow pkt _ s.globals Globals.new).1]

/-- The delta of a packet is that of its flow. -/
theorem update_delta (s : EngineState F) (pkt : PacketMeta) :
    (s.update pkt).2.2 = (flowStep pkt (s.flows.lookup pkt.key)).2 := by
  have h := ingest_flowEntry_sameFlow pkt (s.flows.lookup pkt.key) s.globals Globals.new
  rw [update, flowStep, h.1, h.2]

@[simp] theorem update_cfg (s : EngineState F) (pkt : PacketMeta) :
    (s.update pkt).1.cfg = s.cfg := rfl

/-- A packet moves its own flow and no other. -/
theorem lookup_update (s : EngineState F) (pkt : PacketMeta) (k : FlowKey) :
    (s.update pkt).1.flows.lookup k
      = if k = pkt.key then some (flowStep pkt (s.flows.lookup k)).1 else s.flows.lookup k := by
  rw [update_flows]
  by_cases h : k = pkt.key
  · rw [if_pos h, h, AList.lookup_insert]
  · rw [if_neg h, AList.lookup_insert_ne h]

end EngineState

/-! ## A sweep on one flow -/

/-- The half-open count released and the timeout marked. -/
def FlowState.flagged (f : FlowState) : FlowState :=
  { f with handshakeTimeoutFlagged := true, halfOpenCounted := false }

/-- The mark is off. -/
theorem clearHalfOpen_flow (f : FlowState) (g : Globals) :
    (clearHalfOpen f g).1 = { f with halfOpenCounted := false } := by
  rw [clearHalfOpen]
  split_ifs with h
  · rfl
  · simp only [Bool.not_eq_true] at h
    rw [← h]

section Sweep

variable [F64 F]

/-- What a sweep makes of a flow: nothing if it is idle, else the flow, flagged if its
SYN timed out. -/
def sweepFlow (cfg : DetectConfig F) (now : ℕ) (f : FlowState) : Option FlowState :=
  if f.idle (secsToNanos cfg.flowTtlSecs) now then none
  else some (if f.timedOut (secsToNanos cfg.handshakeTimeoutSecs) now then f.flagged else f)

omit [F64 F] in
/-- A sweep keeps the flows that are not idle, and does not touch when they were last seen or
what their service is. -/
theorem sweepFlow_eq_some {cfg : DetectConfig F} {now : ℕ} {f f' : FlowState}
    (h : sweepFlow cfg now f = some f') :
    f.idle (secsToNanos cfg.flowTtlSecs) now = false ∧ f'.frame = f.frame := by
  rw [sweepFlow] at h
  split_ifs at h with hidle hout
  · rw [← Option.some.inj h]
    exact ⟨by simpa using hidle, rfl⟩
  · rw [← Option.some.inj h]
    exact ⟨by simpa using hidle, rfl⟩

omit [F64 F] in
/-- A sweep keeps a flow that is not idle. -/
theorem sweepFlow_of_not_idle {cfg : DetectConfig F} {now : ℕ} {f : FlowState}
    (h : f.idle (secsToNanos cfg.flowTtlSecs) now = false) :
    ∃ f', sweepFlow cfg now f = some f' := by
  rw [sweepFlow, h]
  exact ⟨_, rfl⟩

/-- Flagging touches one flow. -/
theorem lookup_flagTimeout (now : ℕ) (acc : EngineState F × List (L4Event F)) (k k' : FlowKey) :
    (flagTimeout now acc k).1.flows.lookup k'
      = if k' = k then (acc.1.flows.lookup k).map FlowState.flagged
        else acc.1.flows.lookup k' := by
  rw [flagTimeout]
  cases h : acc.1.flows.lookup k with
  | none =>
      split_ifs with hk
      · rw [hk, h]
        rfl
      · rfl
  | some f =>
      split_ifs with hk
      · subst hk
        simp only [clearHalfOpen_flow, Option.map_some]
        exact AList.lookup_insert _
      · exact AList.lookup_insert_ne hk

omit [F64 F] in
/-- Evicting removes one flow. -/
theorem lookup_evict (s : EngineState F) (k k' : FlowKey) :
    (evict s k).flows.lookup k' = if k' = k then none else s.flows.lookup k' := by
  rw [evict]
  cases h : s.flows.lookup k with
  | none =>
      split_ifs with hk
      · rw [hk, h]
      · rfl
  | some f =>
      split_ifs with hk
      · rw [hk]
        exact AList.lookup_erase k s.flows
      · exact AList.lookup_erase_ne hk

/-- The keys of the entries selected by a sweep. -/
def selected (p : FlowState → Bool) (t : Table FlowKey FlowState) : List FlowKey :=
  (t.entries.filter fun e => p e.2).map fun e => e.1

/-- The keys of the flows with a property. -/
theorem mem_selected {p : FlowState → Bool} {t : Table FlowKey FlowState} {k : FlowKey} :
    k ∈ selected p t ↔ ∃ f, t.lookup k = some f ∧ p f = true := by
  simp only [selected, List.mem_map, List.mem_filter]
  constructor
  · rintro ⟨⟨k', f⟩, ⟨hmem, hp⟩, rfl⟩
    exact ⟨f, (List.mem_dlookup_iff t.nodupKeys).2 hmem, hp⟩
  · rintro ⟨f, hf, hp⟩
    exact ⟨⟨k, f⟩, ⟨(List.mem_dlookup_iff t.nodupKeys).1 hf, hp⟩, rfl⟩

/-- A tracked flow is selected by its property. -/
theorem mem_selected_of_lookup {p : FlowState → Bool} {t : Table FlowKey FlowState} {k : FlowKey}
    {f : FlowState} (h : t.lookup k = some f) : k ∈ selected p t ↔ p f = true := by
  rw [mem_selected, h]
  simp

/-- No key is selected twice. -/
theorem selected_nodup (p : FlowState → Bool) (t : Table FlowKey FlowState) :
    (selected p t).Nodup :=
  List.Nodup.sublist (List.filter_sublist.map _) t.keys_nodup

/-- The events of the loop over `timeouts`, in order. -/
theorem foldl_flagTimeout_events (now : ℕ) {ks : List FlowKey} (hks : ks.Nodup)
    (acc : EngineState F × List (L4Event F)) :
    (ks.foldl (flagTimeout now) acc).2
      = acc.2 ++ ks.filterMap fun k => (acc.1.flows.lookup k).map (timeoutEvent now k) := by
  induction ks generalizing acc with
  | nil => simp
  | cons k ks ih =>
      obtain ⟨hk, hnd⟩ := List.nodup_cons.1 hks
      have hrest : (ks.filterMap fun j =>
            ((flagTimeout now acc k).1.flows.lookup j).map (timeoutEvent (F := F) now j))
          = ks.filterMap fun j => (acc.1.flows.lookup j).map (timeoutEvent now j) := by
        apply List.filterMap_congr
        intro j hj
        rw [lookup_flagTimeout, if_neg (ne_of_mem_of_not_mem hj hk)]
      have hout : (flagTimeout now acc k).2
          = acc.2 ++ ((acc.1.flows.lookup k).map (timeoutEvent now k)).toList := by
        rw [flagTimeout]
        cases acc.1.flows.lookup k with
        | none => simp
        | some f => simp [clearHalfOpen_flow, timeoutEvent]
      rw [List.foldl_cons, ih hnd, hrest, hout, List.append_assoc]
      cases h : acc.1.flows.lookup k <;> simp [h]

namespace EngineState

/-- The sweep, with its two loops over selected keys. -/
theorem sweep_eq (s : EngineState F) (now : ℕ) :
    s.sweep now
      = (let timeouts :=
          selected (FlowState.timedOut (secsToNanos s.cfg.handshakeTimeoutSecs) now) s.flows
        let toRemove := selected (FlowState.idle (secsToNanos s.cfg.flowTtlSecs) now) s.flows
        let r := timeouts.foldl (flagTimeout now) (s, [])
        (toRemove.foldl evict r.1, r.2)) := rfl

/-- A sweep treats every flow on its own. -/
theorem lookup_sweep (s : EngineState F) (now : ℕ) (k : FlowKey) :
    (s.sweep now).1.flows.lookup k = (s.flows.lookup k).bind (sweepFlow s.cfg now) := by
  have hflag := Table.foldl_pointwise
    (fun (acc : EngineState F × List (L4Event F)) j => acc.1.flows.lookup j)
    (flagTimeout now) (Option.map FlowState.flagged) (lookup_flagTimeout now)
    (selected_nodup (FlowState.timedOut (secsToNanos s.cfg.handshakeTimeoutSecs) now) s.flows)
    (s, []) k
  have hevict := fun s' : EngineState F => Table.foldl_pointwise
    (fun (s : EngineState F) j => s.flows.lookup j) evict (fun _ => none) lookup_evict
    (selected_nodup (FlowState.idle (secsToNanos s.cfg.flowTtlSecs) now) s.flows) s' k
  rw [sweep_eq]
  simp only at hflag hevict ⊢
  rw [hevict, hflag]
  cases h : s.flows.lookup k with
  | none =>
      split_ifs <;> rfl
  | some f =>
      simp only [mem_selected_of_lookup h, Option.map_some, Option.bind_some, sweepFlow]
      split_ifs <;> rfl

/-- A flow tracked after a sweep was tracked before it. -/
theorem lookup_swept {s : EngineState F} {now : ℕ} {k : FlowKey} {f' : FlowState}
    (hf' : (s.sweep now).1.flows.lookup k = some f') :
    ∃ f, s.flows.lookup k = some f ∧ sweepFlow s.cfg now f = some f' := by
  rw [lookup_sweep, Option.bind_eq_some_iff] at hf'
  exact hf'

/-- The events of a sweep are those of the timed-out flows. -/
theorem sweep_events (s : EngineState F) (now : ℕ) :
    (s.sweep now).2
      = (s.flows.entries.filter fun e =>
          e.2.timedOut (secsToNanos s.cfg.handshakeTimeoutSecs) now).map
        fun e => timeoutEvent now e.1 e.2 := by
  rw [sweep_eq]
  simp only
  rw [foldl_flagTimeout_events now (selected_nodup _ _), List.nil_append, selected,
    List.filterMap_map, ← List.filterMap_eq_map]
  apply List.filterMap_congr
  intro e he
  have hmem : s.flows.lookup e.1 = some e.2 :=
    (List.mem_dlookup_iff s.flows.nodupKeys).2 (List.mem_of_mem_filter he)
  simp [hmem]

/-- A sweep reports the flows that have timed out. -/
theorem mem_sweep_events {s : EngineState F} {now : ℕ} {ev : L4Event F} :
    ev ∈ (s.sweep now).2 ↔ ∃ k f, s.flows.lookup k = some f ∧
      f.timedOut (secsToNanos s.cfg.handshakeTimeoutSecs) now = true ∧
      ev = timeoutEvent now k f := by
  rw [sweep_events, List.mem_map]
  constructor
  · rintro ⟨⟨k, f⟩, he, rfl⟩
    obtain ⟨hmem, hp⟩ := List.mem_filter.1 he
    exact ⟨k, f, (List.mem_dlookup_iff s.flows.nodupKeys).2 hmem, hp, rfl⟩
  · rintro ⟨k, f, hf, hp, rfl⟩
    exact ⟨⟨k, f⟩, List.mem_filter.2 ⟨(List.mem_dlookup_iff s.flows.nodupKeys).1 hf, hp⟩, rfl⟩

theorem flagTimeout_cfg (now : ℕ) (acc : EngineState F × List (L4Event F)) (k : FlowKey) :
    (flagTimeout now acc k).1.cfg = acc.1.cfg := by
  unfold flagTimeout
  cases acc.1.flows.lookup k <;> rfl

omit [F64 F] in
theorem evict_cfg (s : EngineState F) (k : FlowKey) : (evict s k).cfg = s.cfg := by
  unfold evict
  cases s.flows.lookup k <;> rfl

/-- A sweep keeps the configuration. -/
theorem sweep_cfg (s : EngineState F) (now : ℕ) : (s.sweep now).1.cfg = s.cfg := by
  rw [sweep_eq]
  refine List.foldlRecOn (motive := fun s' : EngineState F => s'.cfg = s.cfg) _ evict ?_
    fun s' hs' k _ => (evict_cfg s' k).trans hs'
  exact List.foldlRecOn (motive := fun acc : EngineState F × List (L4Event F) =>
    acc.1.cfg = s.cfg) _ (flagTimeout now) rfl fun acc hacc k _ =>
      (flagTimeout_cfg now acc k).trans hacc

/-- The thresholds never change. -/
theorem after_cfg (s : EngineState F) (ops : List Op) : (machine.after s ops).cfg = s.cfg := by
  refine machine.after_invariant (P := fun s' => s'.cfg = s.cfg) rfl ?_
  rintro ⟨s', op, out⟩ _ hs'
  cases op with
  | update pkt => exact hs'
  | sweep now => exact (sweep_cfg s' now).trans hs'

end EngineState

/-- So does a run. -/
theorem Engine.cfg_after (cfg : DetectConfig F) (calls : List Call) :
    (Engine.machine.after (.new cfg) calls).state.cfg = cfg := by
  rw [Engine.state_after]
  exact EngineState.after_cfg _ _

end Sweep
