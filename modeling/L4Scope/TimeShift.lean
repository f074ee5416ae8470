/-
# Shifting the clock

The engine reads no clock but that of the packets, and only compares and subtracts what it
reads.  This file shifts a run by a whole number of seconds, which moves every per-second
bucket to another one, and relates the two runs step by step: flow times, rates and debounces
are later by the shift, everything else is equal.

Zero is the one time that is not shifted: it marks a sweep and an alert that never happened.
Packets of the first second since the epoch would be told apart from it, so they are excluded.
-/
import L4Scope.HostRates
import L4Scope.DetectorChain

variable {F : Type}

/-! ## What is later by a shift -/

/-- The packet at a later time. -/
def PacketMeta.later (Δ : ℕ) (pkt : PacketMeta) : PacketMeta :=
  { pkt with tsNanos := pkt.tsNanos + Δ }

/-- The flow as if everything had happened to it later. -/
def FlowState.later (Δ : ℕ) (f : FlowState) : FlowState :=
  { f with
    firstSeenNs := f.firstSeenNs + Δ
    lastSeenNs := f.lastSeenNs + Δ
    synTimeNs := f.synTimeNs.map (· + Δ)
    synackTimeNs := f.synackTimeNs.map (· + Δ) }

/-- The event at a later time. -/
def L4Event.later (Δ : ℕ) (ev : L4Event F) : L4Event F :=
  { ev with tsNanos := ev.tsNanos + Δ }

/-- The call at a later time. -/
def Call.later (Δ : ℕ) : Call → Call
  | .process pkt => .process (pkt.later Δ)
  | .sweep now => .sweep (now + Δ)

/-- A packet that is neither in the first second nor, shifted, beyond 64 bits. -/
def PacketMeta.InRange (Δ : ℕ) (pkt : PacketMeta) : Prop :=
  NS_PER_SEC ≤ pkt.tsNanos ∧ pkt.tsNanos + Δ < 2 ^ 64

/-- A call whose packet, if it has one, is in range. -/
def Call.InRange (Δ : ℕ) : Call → Prop
  | .process pkt => pkt.InRange Δ
  | .sweep _ => True

/-- A time at which something happened last, with zero for never. -/
def LaterOrNever (Δ t t' : ℕ) : Prop := (t = 0 ∧ t' = 0) ∨ (t ≠ 0 ∧ t' = t + Δ)

/-! ## The rates -/

namespace RollingRate

/-- The seconds of a shift by whole seconds. -/
theorem second_shifted {Δ : ℕ} (hΔ : NS_PER_SEC ∣ Δ) (t : ℕ) :
    second (t + Δ) = second t + second Δ := Nat.add_div_of_dvd_left hΔ

/-- A rate over one second whose bucket, if it was ever used, stands for a later second. -/
structure Later (Δ : ℕ) (r r' : RollingRate) : Prop where
  windowSecs : r.windowSecs = 1
  windowSecs' : r'.windowSecs = 1
  epoch : (r.epochAt 0 = U64_MAX ∧ r'.epochAt 0 = U64_MAX) ∨
    (r.epochAt 0 ≠ U64_MAX ∧ r'.epochAt 0 ≠ U64_MAX ∧ r'.epochAt 0 = r.epochAt 0 + second Δ)
  bucket : r'.bucketAt 0 = r.bucketAt 0

variable {Δ : ℕ} {r r' : RollingRate}

/-- Empty rings. -/
theorem later_new : (new 1).Later Δ (new 1) where
  windowSecs := rfl
  windowSecs' := rfl
  epoch := Or.inl ⟨rfl, rfl⟩
  bucket := rfl

/-- There is one slot. -/
theorem slot_eq_zero (h : r.windowSecs = 1) (t : ℕ) : 0 = r.slot t := by
  rw [slot, h, Nat.mod_one]

/-- A second of 64 bits is never the tag of an unused bucket. -/
theorem second_ne_max {t : ℕ} (h : t < 2 ^ 64) : second t ≠ U64_MAX := by
  rw [second, NS_PER_SEC, U64_MAX]
  omega

/-- Recording, on both sides. -/
theorem Later.record (hΔ : NS_PER_SEC ∣ Δ) (h : r.Later Δ r') {t : ℕ} (ht : t + Δ < 2 ^ 64) :
    (r.record t).Later Δ (r'.record (t + Δ)) := by
  have hne := second_ne_max (show t < 2 ^ 64 by omega)
  have hne' := second_ne_max ht
  constructor
  · exact h.windowSecs
  · exact h.windowSecs'
  · right
    rw [epochAt_record, epochAt_record, if_pos (slot_eq_zero h.windowSecs _),
      if_pos (slot_eq_zero h.windowSecs' _)]
    exact ⟨hne, hne', second_shifted hΔ t⟩
  · -- the bucket is in use for this second on both sides or on neither
    have hsame : r'.epochAt 0 = second (t + Δ) ↔ r.epochAt 0 = second t := by
      rcases h.epoch with ⟨hnew, hnew'⟩ | ⟨_, _, hshift⟩
      · rw [hnew, hnew']
        exact iff_of_false hne'.symm hne.symm
      · rw [hshift, second_shifted hΔ, Nat.add_right_cancel_iff]
    rw [bucketAt_record, bucketAt_record, if_pos (slot_eq_zero h.windowSecs _),
      if_pos (slot_eq_zero h.windowSecs' _), h.bucket]
    simp only [hsame]

/-- The windows hold as many. -/
theorem Later.countWindow (hΔ : NS_PER_SEC ∣ Δ) (h : r.Later Δ r') (now : ℕ) :
    r'.countWindow (now + Δ) = r.countWindow now := by
  have hin : inWindow 1 (now + Δ) (r'.epochAt 0) = inWindow 1 now (r.epochAt 0) := by
    rw [Bool.eq_iff_iff]
    simp only [inWindow, second_shifted hΔ]
    rcases h.epoch with ⟨hnew, hnew'⟩ | ⟨hused, hused', hshift⟩
    · simp [hnew, hnew']
    · rw [hshift] at hused' ⊢
      simp only [decide_eq_true hused, decide_eq_true hused', Bool.true_and, Bool.and_eq_true,
        decide_eq_true_eq]
      omega
  rw [countWindow_eq_sum, countWindow_eq_sum, h.windowSecs, h.windowSecs']
  simp only [List.range_one, List.map_singleton, List.sum_singleton, hin, h.bucket]

/-- The rates are equal. -/
theorem Later.perSec [F64 F] (hΔ : NS_PER_SEC ∣ Δ) (h : r.Later Δ r') (now : ℕ) :
    (r'.perSec (now + Δ) : F) = r.perSec now := by
  rw [RollingRate.perSec, RollingRate.perSec, h.countWindow hΔ, h.windowSecs, h.windowSecs']

end RollingRate

/-! ## One packet -/

/-- The host-wide counters of the later run. -/
structure Globals.Later (Δ : ℕ) (g g' : Globals) : Prop where
  rstRate : g.rstRate.Later Δ g'.rstRate
  newFlowRate : g.newFlowRate.Later Δ g'.newFlowRate
  halfOpen : g'.halfOpen = g.halfOpen

namespace Globals.Later

variable {Δ : ℕ} {g g' : Globals}

/-- Raising a count, on both sides. -/
theorem incHalfOpen (h : g.Later Δ g') (ep : Endpoint) :
    (g.incHalfOpen ep).Later Δ (g'.incHalfOpen ep) where
  rstRate := h.rstRate
  newFlowRate := h.newFlowRate
  halfOpen := by
    rw [Globals.incHalfOpen, Globals.incHalfOpen, halfOpenFor, halfOpenFor, h.halfOpen]

/-- Lowering a count, on both sides. -/
theorem decHalfOpen (h : g.Later Δ g') (ep : Endpoint) :
    (g.decHalfOpen ep).Later Δ (g'.decHalfOpen ep) := by
  rw [Globals.decHalfOpen, Globals.decHalfOpen, h.halfOpen]
  cases g.halfOpen.lookup ep with
  | none => exact h
  | some c => exact ⟨h.rstRate, h.newFlowRate, rfl⟩

end Globals.Later

/-- `w'` is `w`, later; the delta is the same. -/
structure Work.Later (Δ : ℕ) (w w' : Work) : Prop where
  flow : w'.flow = w.flow.later Δ
  d : w'.d = w.d
  globals : w.globals.Later Δ w'.globals

section Arms

variable {Δ : ℕ} {w w' : Work} {pkt : PacketMeta}

/-- Clearing the mark, on both sides. -/
theorem Work.Later.clear (h : w.Later Δ w') : w.clear.Later Δ w'.clear := by
  obtain ⟨flow, g, d⟩ := w
  obtain ⟨flow', g', d'⟩ := w'
  obtain ⟨rfl, hd, hg⟩ := h
  obtain rfl : d' = d := hd
  have hcounted : (flow.later Δ).halfOpenCounted = flow.halfOpenCounted := rfl
  simp only [Work.clear, clearHalfOpen, hcounted]
  split_ifs
  · exact ⟨rfl, rfl, hg.decHalfOpen _⟩
  · exact ⟨rfl, rfl, hg⟩

/-- The SYN arm, on both sides. -/
theorem onSynOnly_later (h : w.Later Δ w') :
    (onSynOnly pkt w).Later Δ (onSynOnly (pkt.later Δ) w') := by
  obtain ⟨flow, g, d⟩ := w
  obtain ⟨flow', g', d'⟩ := w'
  obtain ⟨rfl, hd, hg⟩ := h
  obtain rfl : d' = d := hd
  have hsyn : (flow.later Δ).synTimeNs.isNone = flow.synTimeNs.isNone := Option.isNone_map
  have hcounted : (flow.later Δ).halfOpenCounted = flow.halfOpenCounted := rfl
  simp only [onSynOnly, expectAfterSyn, hsyn, hcounted]
  split_ifs
  · exact ⟨rfl, rfl, hg.incHalfOpen _⟩
  · exact ⟨rfl, rfl, hg⟩
  · exact ⟨rfl, rfl, hg⟩

/-- The round-trip time is a difference. -/
theorem onSynAck_later (h : w.Later Δ w') :
    (onSynAck pkt w).Later Δ (onSynAck (pkt.later Δ) w') := by
  obtain ⟨flow, g, d⟩ := w
  obtain ⟨flow', g', d'⟩ := w'
  obtain ⟨rfl, hd, hg⟩ := h
  obtain rfl : d' = d := hd
  simp only [onSynAck, expectAfterSyn, FlowState.later, PacketMeta.later]
  cases flow.synTimeNs with
  | none => exact ⟨rfl, rfl, hg⟩
  | some syn =>
      simp only [Option.map_some, Nat.add_sub_add_right]
      exact ⟨rfl, rfl, hg⟩

/-- The RST arm, which records the reset. -/
theorem onRst_later (hΔ : NS_PER_SEC ∣ Δ) (hpkt : pkt.InRange Δ) (h : w.Later Δ w') :
    (onRst pkt w).Later Δ (onRst (pkt.later Δ) w') := by
  obtain ⟨flow, g, d⟩ := w
  obtain ⟨flow', g', d'⟩ := w'
  obtain ⟨rfl, hd, hg⟩ := h
  obtain rfl : d' = d := hd
  have hrate : Globals.Later Δ { g with rstRate := g.rstRate.record pkt.tsNanos }
      { g' with rstRate := g'.rstRate.record (pkt.later Δ).tsNanos } :=
    ⟨hg.rstRate.record hΔ hpkt.2, hg.newFlowRate, hg.halfOpen⟩
  have hstate : (flow.later Δ).state = flow.state := rfl
  simp only [onRst, hstate]
  split_ifs <;> exact Work.Later.clear ⟨rfl, rfl, hrate⟩

/-- The end of a handshake. -/
theorem completeHandshake_later (h : w.Later Δ w') :
    (completeHandshake pkt w).Later Δ (completeHandshake (pkt.later Δ) w') := by
  obtain ⟨flow, g, d⟩ := w
  obtain ⟨flow', g', d'⟩ := w'
  obtain ⟨rfl, hd, hg⟩ := h
  obtain rfl : d' = d := hd
  have hstate : (flow.later Δ).state = flow.state := rfl
  have hflags : (pkt.later Δ).flags = pkt.flags := rfl
  simp only [completeHandshake, hstate, hflags]
  split_ifs
  · exact Work.Later.clear ⟨rfl, rfl, hg⟩
  · exact ⟨rfl, rfl, hg⟩

/-- A FIN. -/
theorem closeOnFin_later (h : w.Later Δ w') :
    (closeOnFin pkt w).Later Δ (closeOnFin (pkt.later Δ) w') := by
  obtain ⟨flow, g, d⟩ := w
  obtain ⟨flow', g', d'⟩ := w'
  obtain ⟨rfl, hd, hg⟩ := h
  obtain rfl : d' = d := hd
  have hflags : (pkt.later Δ).flags = pkt.flags := rfl
  simp only [closeOnFin, hflags]
  split_ifs
  · exact Work.Later.clear ⟨rfl, rfl, hg⟩
  · exact ⟨rfl, rfl, hg⟩

/-- The window check. -/
theorem zeroWindowEdge_later (h : w.Later Δ w') :
    (zeroWindowEdge pkt w).Later Δ (zeroWindowEdge (pkt.later Δ) w') := by
  obtain ⟨flow, g, d⟩ := w
  obtain ⟨flow', g', d'⟩ := w'
  obtain ⟨rfl, hd, hg⟩ := h
  obtain rfl : d' = d := hd
  have hest : (flow.later Δ).established = flow.established := rfl
  have hstate : (flow.later Δ).state = flow.state := rfl
  have hzero : (flow.later Δ).zeroWindow = flow.zeroWindow := rfl
  have hdir : (pkt.later Δ).dir = pkt.dir := rfl
  have hwindow : (pkt.later Δ).window = pkt.window := rfl
  simp only [zeroWindowEdge, hest, hstate, hzero, hdir, hwindow]
  split_ifs <;> exact ⟨rfl, rfl, hg⟩

/-- The tracking of data. -/
theorem trackSegment_later (h : w.Later Δ w') :
    (trackSegment pkt w).Later Δ (trackSegment (pkt.later Δ) w') := by
  obtain ⟨flow, g, d⟩ := w
  obtain ⟨flow', g', d'⟩ := w'
  obtain ⟨rfl, hd, hg⟩ := h
  obtain rfl : d' = d := hd
  have hnext : (flow.later Δ).nextSeq = flow.nextSeq := rfl
  have hdir : (pkt.later Δ).dir = pkt.dir := rfl
  have hseq : (pkt.later Δ).seq = pkt.seq := rfl
  have hlen : (pkt.later Δ).payloadLen = pkt.payloadLen := rfl
  simp only [trackSegment, hnext, hdir, hseq, hlen]
  split_ifs
  · cases flow.nextSeq.get pkt.dir with
    | none => exact ⟨rfl, rfl, hg⟩
    | some exp =>
        dsimp only
        split_ifs <;> exact ⟨rfl, rfl, hg⟩
  · exact ⟨rfl, rfl, hg⟩

/-- The tracking of acknowledgements. -/
theorem trackDupAck_later (h : w.Later Δ w') :
    (trackDupAck pkt w).Later Δ (trackDupAck (pkt.later Δ) w') := by
  obtain ⟨flow, g, d⟩ := w
  obtain ⟨flow', g', d'⟩ := w'
  obtain ⟨rfl, hd, hg⟩ := h
  obtain rfl : d' = d := hd
  have hlast : (flow.later Δ).lastAck = flow.lastAck := rfl
  have hcount : (flow.later Δ).dupAckCount = flow.dupAckCount := rfl
  have hdir : (pkt.later Δ).dir = pkt.dir := rfl
  have hflags : (pkt.later Δ).flags = pkt.flags := rfl
  have hack : (pkt.later Δ).ack = pkt.ack := rfl
  have hlen : (pkt.later Δ).payloadLen = pkt.payloadLen := rfl
  simp only [trackDupAck, hlast, hcount, hdir, hflags, hack, hlen]
  split_ifs <;> exact ⟨rfl, rfl, hg⟩

/-- The whole packet, on both sides. -/
theorem ingest_later (hΔ : NS_PER_SEC ∣ Δ) (hpkt : pkt.InRange Δ) (h : w.Later Δ w') :
    (ingest pkt w).Later Δ (ingest (pkt.later Δ) w') := by
  have hproto : (pkt.later Δ).proto = pkt.proto := rfl
  have hflags : (pkt.later Δ).flags = pkt.flags := rfl
  have h0 : Work.Later Δ { w with flow := { w.flow with lastSeenNs := pkt.tsNanos } }
      { w' with flow := { w'.flow with lastSeenNs := (pkt.later Δ).tsNanos } } :=
    ⟨by rw [h.flow]; rfl, h.d, h.globals⟩
  rw [ingest, ingest, hproto]
  split_ifs
  · rw [updateTcp, updateTcp, hflags]
    split_ifs
    · exact onSynOnly_later h0
    · exact onSynAck_later h0
    · exact onRst_later hΔ hpkt h0
    · exact trackDupAck_later (trackSegment_later (zeroWindowEdge_later
        (closeOnFin_later (completeHandshake_later h0))))
  · exact h0

/-- The flow of the packet; a new one is recorded. -/
theorem flowEntry_later (found : Option FlowState) {g g' : Globals} (hΔ : NS_PER_SEC ∣ Δ)
    (hpkt : pkt.InRange Δ) (h : g.Later Δ g') : (flowEntry pkt found g).Later Δ
      (flowEntry (pkt.later Δ) (found.map (FlowState.later Δ)) g') := by
  cases found with
  | some f => exact ⟨rfl, rfl, h⟩
  | none => exact ⟨rfl, rfl, h.rstRate, h.newFlowRate.record hΔ hpkt.2, h.halfOpen⟩

end Arms

/-! ## The flow state -/

/-- The state of the later run: every flow is later, the entries are in the same order. -/
structure EngineState.Later (Δ : ℕ) (s s' : EngineState F) : Prop where
  cfg : s'.cfg = s.cfg
  flows : s'.flows = Table.mapVals (FlowState.later Δ) s.flows
  globals : s.globals.Later Δ s'.globals

namespace EngineState

variable {Δ : ℕ} {s s' : EngineState F}

/-- New states. -/
theorem later_new (cfg : DetectConfig F) : (new cfg).Later Δ (new cfg) where
  cfg := rfl
  flows := rfl
  globals := ⟨RollingRate.later_new, RollingRate.later_new, rfl⟩

/-- The flows are the later ones. -/
theorem Later.lookup (h : s.Later Δ s') (k : FlowKey) :
    s'.flows.lookup k = (s.flows.lookup k).map (FlowState.later Δ) := by
  rw [h.flows, Table.lookup_mapVals]

/-- A packet, on both sides: the deltas are equal. -/
theorem Later.update (hΔ : NS_PER_SEC ∣ Δ) (h : s.Later Δ s') {pkt : PacketMeta}
    (hpkt : pkt.InRange Δ) : (s.update pkt).1.Later Δ (s'.update (pkt.later Δ)).1 ∧
      (s'.update (pkt.later Δ)).2 = (s.update pkt).2 := by
  have hw := ingest_later hΔ hpkt (flowEntry_later (s.flows.lookup pkt.key) hΔ hpkt h.globals)
  rw [← h.lookup] at hw
  constructor
  · constructor
    · exact h.cfg
    · show s'.flows.insert pkt.key (ingest (pkt.later Δ)
        (flowEntry (pkt.later Δ) (s'.flows.lookup pkt.key) s'.globals)).flow = _
      rw [hw.flow, h.flows, ← Table.mapVals_insert]
      rfl
    · exact hw.globals
  · show (pkt.key, { (ingest (pkt.later Δ) (flowEntry (pkt.later Δ) (s'.flows.lookup pkt.key)
        s'.globals)).d with service := some (ingest (pkt.later Δ) (flowEntry (pkt.later Δ)
          (s'.flows.lookup pkt.key) s'.globals)).flow.service }) = _
    rw [hw.flow, hw.d]
    rfl

/-- Both loops of the sweep select the same keys. -/
theorem selected_later {p p' : FlowState → Bool} (h : s.Later Δ s')
    (hp : ∀ f : FlowState, p' (f.later Δ) = p f) : selected p' s'.flows = selected p s.flows := by
  have hfilter : (fun e : Sigma fun _ : FlowKey => FlowState => p' e.2)
      ∘ Sigma.map id (fun _ => FlowState.later Δ) = fun e => p e.2 := by
    funext e
    exact hp e.2
  rw [selected, selected, h.flows, Table.entries_mapVals, List.filter_map, List.map_map, hfilter]
  rfl

/-- The mark of a later flow. -/
theorem clearHalfOpen_later {f : FlowState} {g g' : Globals} (hg : g.Later Δ g') :
    (clearHalfOpen (f.later Δ) g').1 = (clearHalfOpen f g).1.later Δ ∧
      (clearHalfOpen f g).2.Later Δ (clearHalfOpen (f.later Δ) g').2 := by
  have h : Work.Later Δ ⟨f, g, {}⟩ ⟨f.later Δ, g', {}⟩ := ⟨rfl, rfl, hg⟩
  exact ⟨h.clear.flow, h.clear.globals⟩

/-- Evicting a flow, on both sides. -/
theorem evict_later (h : s.Later Δ s') (k : FlowKey) : (evict s k).Later Δ (evict s' k) := by
  rw [evict, evict, h.lookup]
  cases s.flows.lookup k with
  | none => exact h
  | some f =>
      have hcounted : (f.later Δ).halfOpenCounted = f.halfOpenCounted := rfl
      simp only [Option.map_some, hcounted, h.flows, ← Table.mapVals_erase]
      constructor
      · exact h.cfg
      · rfl
      · show Globals.Later Δ (if f.halfOpenCounted then s.globals.decHalfOpen f.service
            else s.globals) (if f.halfOpenCounted then s'.globals.decHalfOpen f.service
              else s'.globals)
        split_ifs
        · exact h.globals.decHalfOpen f.service
        · exact h.globals

/-- Evicting some. -/
theorem foldl_evict_later (ks : List FlowKey) {t t' : EngineState F} (h : t.Later Δ t') :
    (ks.foldl evict t).Later Δ (ks.foldl evict t') := by
  induction ks generalizing t t' with
  | nil => exact h
  | cons k ks ih => exact ih (evict_later h k)

variable [F64 F]

/-- The event of a timeout. -/
theorem timeoutEvent_later (now : ℕ) (k : FlowKey) (f : FlowState) :
    timeoutEvent (F := F) (now + Δ) k (f.later Δ) = (timeoutEvent now k f).later Δ := by
  have hwaited : now + Δ - (f.later Δ).synTimeNs.getD (now + Δ) = now - f.synTimeNs.getD now := by
    rw [FlowState.later]
    cases f.synTimeNs with
    | none => simp
    | some t => exact Nat.add_sub_add_right now Δ t
  simp only [timeoutEvent, hwaited]
  rfl

/-- Flagging a flow, on both sides. -/
theorem flagTimeout_later {acc acc' : EngineState F × List (L4Event F)}
    (h : acc.1.Later Δ acc'.1) (hevs : acc'.2 = acc.2.map (L4Event.later Δ)) (now : ℕ)
    (k : FlowKey) :
    (flagTimeout now acc k).1.Later Δ (flagTimeout (now + Δ) acc' k).1 ∧
      (flagTimeout (now + Δ) acc' k).2 = (flagTimeout now acc k).2.map (L4Event.later Δ) := by
  rw [flagTimeout, flagTimeout, h.lookup]
  cases acc.1.flows.lookup k with
  | none => exact ⟨h, hevs⟩
  | some f =>
      obtain ⟨hflow, hglobals⟩ :=
        clearHalfOpen_later (f := { f with handshakeTimeoutFlagged := true }) h.globals
      have hflag : { f.later Δ with handshakeTimeoutFlagged := true }
          = FlowState.later Δ { f with handshakeTimeoutFlagged := true } := rfl
      simp only [Option.map_some, hflag, hflow, h.flows, ← Table.mapVals_insert]
      constructor
      · exact ⟨h.cfg, rfl, hglobals⟩
      · rw [hevs, List.map_append, List.map_singleton, timeoutEvent_later]

/-- Flagging some. -/
theorem foldl_flagTimeout_later (acc acc' : EngineState F × List (L4Event F))
    (h : acc.1.Later Δ acc'.1) (hevs : acc'.2 = acc.2.map (L4Event.later Δ)) (now : ℕ)
    (ks : List FlowKey) :
    (ks.foldl (flagTimeout now) acc).1.Later Δ (ks.foldl (flagTimeout (now + Δ)) acc').1 ∧
      (ks.foldl (flagTimeout (now + Δ)) acc').2
        = (ks.foldl (flagTimeout now) acc).2.map (L4Event.later Δ) := by
  induction ks generalizing acc acc' with
  | nil => exact ⟨h, hevs⟩
  | cons k ks ih =>
      obtain ⟨hstep, hevs⟩ := flagTimeout_later h hevs now k
      exact ih _ _ hstep hevs

/-- A later sweep is the sweep, later: both loops visit the same keys. -/
theorem Later.sweep (h : s.Later Δ s') (now : ℕ) :
    (s.sweep now).1.Later Δ (s'.sweep (now + Δ)).1 ∧
      (s'.sweep (now + Δ)).2 = (s.sweep now).2.map (L4Event.later Δ) := by
  have hout : ∀ f : FlowState,
      (f.later Δ).timedOut (secsToNanos s.cfg.handshakeTimeoutSecs) (now + Δ)
        = f.timedOut (secsToNanos s.cfg.handshakeTimeoutSecs) now := by
    intro f
    rw [FlowState.timedOut, FlowState.timedOut, FlowState.later]
    cases f.synTimeNs with
    | none => rfl
    | some t => simp only [Option.map_some, Nat.add_sub_add_right]
  have hidle : ∀ f : FlowState,
      (f.later Δ).idle (secsToNanos s.cfg.flowTtlSecs) (now + Δ)
        = f.idle (secsToNanos s.cfg.flowTtlSecs) now := by
    intro f
    rw [FlowState.idle, FlowState.idle, FlowState.later]
    simp only [Nat.add_sub_add_right]
  rw [sweep_eq, sweep_eq, h.cfg]
  simp only [selected_later h hout, selected_later h hidle]
  obtain ⟨hs, hevs⟩ := foldl_flagTimeout_later (s, []) (s', []) h rfl now
    (selected (FlowState.timedOut (secsToNanos s.cfg.handshakeTimeoutSecs) now) s.flows)
  exact ⟨foldl_evict_later _ hs, hevs⟩

end EngineState

/-! ## The detectors -/

/-- The debounce of the later run. -/
structure Debounce.Later (Δ : ℕ) (b b' : Debounce) : Prop where
  gapNs : b'.gapNs = b.gapNs
  lastNs : LaterOrNever Δ b.lastNs b'.lastNs

/-- A detector of the later run: only its debounce differs. -/
def Detector.Later (Δ : ℕ) : Detector → Detector → Prop
  | .rstStorm b, .rstStorm b' => b.Later Δ b'
  | .synBacklog b, .synBacklog b' => b.Later Δ b'
  | .churn b, .churn b' => b.Later Δ b'
  | d, d' => d' = d

/-- What the detectors see of a packet of the later run. -/
structure DetectCtx.Later (Δ : ℕ) (ctx ctx' : DetectCtx F) : Prop where
  state : ctx.state.Later Δ ctx'.state
  key : ctx'.key = ctx.key
  delta : ctx'.delta = ctx.delta
  nowNs : ctx'.nowNs = ctx.nowNs + Δ
  pos : ctx.nowNs ≠ 0

variable {Δ : ℕ}

/-- The debounces let the same through. -/
theorem Debounce.Later.ready {b b' : Debounce} (h : b.Later Δ b') {now : ℕ} (hnow : now ≠ 0) :
    (b.ready now).1.Later Δ (b'.ready (now + Δ)).1 ∧
      (b'.ready (now + Δ)).2 = (b.ready now).2 := by
  have hopen : (b'.gapNs ≤ now + Δ - b'.lastNs ∨ b'.lastNs = 0)
      ↔ (b.gapNs ≤ now - b.lastNs ∨ b.lastNs = 0) := by
    rw [h.gapNs]
    rcases h.lastNs with ⟨hnever, hnever'⟩ | ⟨hlast, hlast'⟩
    · rw [hnever, hnever']
      exact iff_of_true (Or.inr rfl) (Or.inr rfl)
    · rw [hlast', Nat.add_sub_add_right]
      exact or_congr_right (iff_of_false (by omega) hlast)
  rw [Debounce.ready, Debounce.ready]
  simp only [hopen]
  split_ifs
  · exact ⟨⟨h.gapNs, Or.inr ⟨hnow, rfl⟩⟩, rfl⟩
  · exact ⟨h, rfl⟩

/-- A debounced event is later, and so is its debounce. -/
theorem debounced_later {b b' : Debounce} (h : b.Later Δ b') {below below' : Bool} {now : ℕ}
    (hnow : now ≠ 0) {ev ev' : L4Event F} (hbelow : below' = below) (hev : ev' = ev.later Δ) :
    (debounced b below now ev).1.Later Δ (debounced b' below' (now + Δ) ev').1 ∧
      (debounced b' below' (now + Δ) ev').2
        = (debounced b below now ev).2.map (L4Event.later Δ) := by
  obtain ⟨hb, hready⟩ := h.ready hnow
  rw [hbelow, hev, debounced, debounced]
  split_ifs
  · exact ⟨h, rfl⟩
  · simp only [hready]
    refine ⟨hb, ?_⟩
    split_ifs <;> rfl

namespace DetectCtx.Later

variable {ctx ctx' : DetectCtx F}

/-- The flow of the packet is the later one. -/
theorem flow (h : ctx.Later Δ ctx') : ctx'.flow = ctx.flow.map (FlowState.later Δ) := by
  rw [DetectCtx.flow, h.key]
  exact h.state.lookup ctx.key

variable [F64 F]

/-- The retransmission detector reports the same, later. -/
theorem retransmission (h : ctx.Later Δ ctx') :
    inspectRetransmission ctx' = (inspectRetransmission ctx).map (L4Event.later Δ) := by
  have hcfg : ctx'.cfg = ctx.cfg := h.state.cfg
  simp only [inspectRetransmission, h.delta, h.flow, hcfg, h.key, h.nowNs]
  cases ctx.delta.isRetransmit with
  | false => rfl
  | true =>
      cases ctx.flow with
      | none => rfl
      | some f =>
          have hratio : ((f.later Δ).retransmitRatio : F) = f.retransmitRatio := rfl
          simp only [Option.map_some, Bool.not_true, Bool.false_eq_true, if_false,
            Option.bind_eq_bind, Option.bind_some, hratio]
          split_ifs <;> rfl

/-- So does that of segments out of order. -/
theorem outOfOrder (h : ctx.Later Δ ctx') :
    inspectOutOfOrder ctx' = (inspectOutOfOrder ctx).map (L4Event.later Δ) := by
  simp only [inspectOutOfOrder, h.delta, h.key, h.nowNs]
  split_ifs <;> rfl

/-- So does that of duplicate ACKs. -/
theorem dupAck (h : ctx.Later Δ ctx') :
    inspectDupAck ctx' = (inspectDupAck ctx).map (L4Event.later Δ) := by
  have hcfg : ctx'.cfg = ctx.cfg := h.state.cfg
  simp only [inspectDupAck, h.delta, hcfg, h.key, h.nowNs]
  split_ifs <;> rfl

/-- So does that of closed windows. -/
theorem zeroWindow (h : ctx.Later Δ ctx') :
    inspectZeroWindow ctx' = (inspectZeroWindow ctx).map (L4Event.later Δ) := by
  simp only [inspectZeroWindow, h.delta, h.key, h.nowNs]
  split_ifs <;> rfl

/-- So does that of round trips, which are differences of times. -/
theorem highRtt (h : ctx.Later Δ ctx') :
    inspectHighRtt ctx' = (inspectHighRtt ctx).map (L4Event.later Δ) := by
  have hcfg : ctx'.cfg = ctx.cfg := h.state.cfg
  simp only [inspectHighRtt, h.delta, hcfg, h.key, h.nowNs]
  cases ctx.delta.rttSampleNs with
  | none => rfl
  | some rtt =>
      simp only [Option.bind_eq_bind, Option.bind_some]
      split_ifs <;> rfl

/-- So does that of refused connections. -/
theorem handshakeFailure (h : ctx.Later Δ ctx') :
    inspectHandshakeFailure ctx' = (inspectHandshakeFailure ctx).map (L4Event.later Δ) := by
  simp only [inspectHandshakeFailure, h.delta, h.key, h.nowNs]
  split_ifs <;> rfl

/-- So does that of resets: the rates are equal, and the debounces let the same through. -/
theorem rstStorm (hΔ : NS_PER_SEC ∣ Δ) (h : ctx.Later Δ ctx') {b b' : Debounce}
    (hb : b.Later Δ b') :
    (inspectRstStorm b ctx).1.Later Δ (inspectRstStorm b' ctx').1 ∧
      (inspectRstStorm b' ctx').2 = (inspectRstStorm b ctx).2.map (L4Event.later Δ) := by
  have hcfg : ctx'.cfg = ctx.cfg := h.state.cfg
  have hrate : (ctx'.globals.rstRate.perSec (ctx.nowNs + Δ) : F)
      = ctx.globals.rstRate.perSec ctx.nowNs := h.state.globals.rstRate.perSec hΔ ctx.nowNs
  simp only [inspectRstStorm, h.delta, hcfg, h.key, h.nowNs, hrate]
  split_ifs
  · exact ⟨hb, rfl⟩
  · exact debounced_later hb h.pos rfl rfl

/-- So does that of the backlog. -/
theorem synBacklog (h : ctx.Later Δ ctx') {b b' : Debounce} (hb : b.Later Δ b') :
    (inspectSynBacklog b ctx).1.Later Δ (inspectSynBacklog b' ctx').1 ∧
      (inspectSynBacklog b' ctx').2 = (inspectSynBacklog b ctx).2.map (L4Event.later Δ) := by
  have hcfg : ctx'.cfg = ctx.cfg := h.state.cfg
  simp only [inspectSynBacklog, h.flow, hcfg, h.key, h.nowNs]
  cases ctx.flow with
  | none => exact ⟨hb, rfl⟩
  | some f =>
      have hservice : (f.later Δ).service = f.service := rfl
      have hcount : ctx'.globals.halfOpenFor f.service = ctx.globals.halfOpenFor f.service := by
        show (ctx'.state.globals.halfOpen.lookup f.service).getD 0 = _
        rw [h.state.globals.halfOpen]
        rfl
      simp only [Option.map_some, hservice, hcount]
      exact debounced_later hb h.pos rfl rfl

/-- So does that of new flows. -/
theorem churn (hΔ : NS_PER_SEC ∣ Δ) (h : ctx.Later Δ ctx') {b b' : Debounce}
    (hb : b.Later Δ b') :
    (inspectChurn b ctx).1.Later Δ (inspectChurn b' ctx').1 ∧
      (inspectChurn b' ctx').2 = (inspectChurn b ctx).2.map (L4Event.later Δ) := by
  have hcfg : ctx'.cfg = ctx.cfg := h.state.cfg
  have hrate : (ctx'.globals.newFlowRate.perSec (ctx.nowNs + Δ) : F)
      = ctx.globals.newFlowRate.perSec ctx.nowNs := h.state.globals.newFlowRate.perSec hΔ ctx.nowNs
  simp only [inspectChurn, h.delta, hcfg, h.key, h.nowNs, hrate]
  split_ifs
  · exact ⟨hb, rfl⟩
  · exact debounced_later hb h.pos rfl rfl

end DetectCtx.Later

/-! ## The engine -/

/-- The engine of the later run. -/
structure Engine.Later (Δ : ℕ) (e e' : Engine F) : Prop where
  state : e.state.Later Δ e'.state
  detectors : List.Forall₂ (Detector.Later Δ) e.detectors e'.detectors
  lastSweepNs : LaterOrNever Δ e.lastSweepNs e'.lastSweepNs
  sweepIntervalNs : e.sweepIntervalNs = NS_PER_SEC
  sweepIntervalNs' : e'.sweepIntervalNs = NS_PER_SEC

variable [F64 F]

/-- A detector of the later run reports the same event, later. -/
theorem Detector.Later.inspect (hΔ : NS_PER_SEC ∣ Δ) {ctx ctx' : DetectCtx F}
    (hctx : ctx.Later Δ ctx') {d d' : Detector} (h : d.Later Δ d') :
    (d.inspect ctx).1.Later Δ (d'.inspect ctx').1 ∧
      (d'.inspect ctx').2 = (d.inspect ctx).2.map (L4Event.later Δ) := by
  cases d with
  | retransmission =>
      obtain rfl : d' = .retransmission := h
      exact ⟨rfl, hctx.retransmission⟩
  | outOfOrder =>
      obtain rfl : d' = .outOfOrder := h
      exact ⟨rfl, hctx.outOfOrder⟩
  | dupAck =>
      obtain rfl : d' = .dupAck := h
      exact ⟨rfl, hctx.dupAck⟩
  | zeroWindow =>
      obtain rfl : d' = .zeroWindow := h
      exact ⟨rfl, hctx.zeroWindow⟩
  | highRtt =>
      obtain rfl : d' = .highRtt := h
      exact ⟨rfl, hctx.highRtt⟩
  | handshakeFailure =>
      obtain rfl : d' = .handshakeFailure := h
      exact ⟨rfl, hctx.handshakeFailure⟩
  | rstStorm b =>
      cases d' with
      | rstStorm b' => exact hctx.rstStorm hΔ h
      | _ => cases h
  | synBacklog b =>
      cases d' with
      | synBacklog b' => exact hctx.synBacklog h
      | _ => cases h
  | churn b =>
      cases d' with
      | churn b' => exact hctx.churn hΔ h
      | _ => cases h

namespace Engine

/-- The whole chain. -/
theorem inspectAll_later (hΔ : NS_PER_SEC ∣ Δ) {ctx ctx' : DetectCtx F} (hctx : ctx.Later Δ ctx')
    {ds ds' : List Detector} (h : List.Forall₂ (Detector.Later Δ) ds ds') :
    List.Forall₂ (Detector.Later Δ) (inspectAll ctx ds).1 (inspectAll ctx' ds').1 ∧
      (inspectAll ctx' ds').2 = (inspectAll ctx ds).2.map (L4Event.later Δ) := by
  induction h with
  | nil => exact ⟨List.Forall₂.nil, rfl⟩
  | @cons d d' ds ds' hd hds ih =>
      obtain ⟨hstate, hevent⟩ := Detector.Later.inspect hΔ hctx hd
      obtain ⟨hstates, hevents⟩ := ih
      refine ⟨List.Forall₂.cons hstate hstates, ?_⟩
      rw [inspectAll, inspectAll] at hevents
      simp only [inspectAll, List.map_cons, List.filterMap_cons, hevent]
      cases (d.inspect ctx).2 with
      | none => exact hevents
      | some ev => exact congrArg (L4Event.later Δ ev :: ·) hevents

omit [F64 F] in
/-- New engines. -/
theorem later_new (cfg : DetectConfig F) : (new cfg).Later Δ (new cfg) where
  state := EngineState.later_new cfg
  detectors := by
    have hnew : (Debounce.new cfg.alertDebounceSecs).Later Δ (Debounce.new cfg.alertDebounceSecs) :=
      ⟨rfl, Or.inl ⟨rfl, rfl⟩⟩
    simp only [new, defaultDetectors, List.forall₂_cons, List.Forall₂.nil]
    exact ⟨rfl, rfl, rfl, rfl, rfl, rfl, hnew, hnew, hnew, trivial⟩
  lastSweepNs := Or.inl ⟨rfl, rfl⟩
  sweepIntervalNs := rfl
  sweepIntervalNs' := rfl

variable {e e' : Engine F}

/-- A sweep, on both sides: the events are later. -/
theorem Later.sweep (h : e.Later Δ e') (now : ℕ) :
    (e.sweep now).1.Later Δ (e'.sweep (now + Δ)).1 ∧
      (e'.sweep (now + Δ)).2 = (e.sweep now).2.map (L4Event.later Δ) := by
  obtain ⟨hstate, hevents⟩ := h.state.sweep now
  exact ⟨⟨hstate, h.detectors, h.lastSweepNs, h.sweepIntervalNs, h.sweepIntervalNs'⟩, hevents⟩

/-- A packet, on both sides: the events are later. -/
theorem Later.process (hΔ : NS_PER_SEC ∣ Δ) (h : e.Later Δ e') {pkt : PacketMeta}
    (hpkt : pkt.InRange Δ) :
    (e.process pkt).1.Later Δ (e'.process (pkt.later Δ)).1 ∧
      (e'.process (pkt.later Δ)).2 = (e.process pkt).2.map (L4Event.later Δ) := by
  have hsec := hpkt.1
  have hpos : pkt.tsNanos ≠ 0 := by
    rw [NS_PER_SEC] at hsec
    omega
  have hts : (pkt.later Δ).tsNanos = pkt.tsNanos + Δ := rfl
  obtain ⟨hstate, hupdate⟩ := h.state.update hΔ hpkt
  have hctx : DetectCtx.Later Δ
      { state := (e.state.update pkt).1, key := (e.state.update pkt).2.1,
        delta := (e.state.update pkt).2.2, nowNs := pkt.tsNanos }
      { state := (e'.state.update (pkt.later Δ)).1, key := (e'.state.update (pkt.later Δ)).2.1,
        delta := (e'.state.update (pkt.later Δ)).2.2, nowNs := pkt.tsNanos + Δ } :=
    ⟨hstate, by rw [hupdate], by rw [hupdate], rfl, hpos⟩
  obtain ⟨hdetectors, hevents⟩ := inspectAll_later hΔ hctx h.detectors
  -- the packet is at least a second behind a sweep that never happened
  have hdue : (NS_PER_SEC ≤ pkt.tsNanos + Δ - e'.lastSweepNs)
      ↔ NS_PER_SEC ≤ pkt.tsNanos - e.lastSweepNs := by
    rcases h.lastSweepNs with ⟨hnever, hnever'⟩ | ⟨_, hlast'⟩
    · rw [hnever, hnever']
      exact iff_of_true (by omega) hsec
    · rw [hlast', Nat.add_sub_add_right]
  rw [Engine.process, Engine.process]
  simp only [hts, h.sweepIntervalNs, h.sweepIntervalNs', hdue]
  split_ifs
  · have hlater : Engine.Later Δ ⟨_, _, pkt.tsNanos, NS_PER_SEC⟩
        ⟨_, _, pkt.tsNanos + Δ, NS_PER_SEC⟩ :=
      ⟨hstate, hdetectors, Or.inr ⟨hpos, rfl⟩, rfl, rfl⟩
    obtain ⟨hswept, hsweepEvents⟩ := hlater.sweep pkt.tsNanos
    refine ⟨hswept, ?_⟩
    rw [List.map_append, hevents, hsweepEvents]
  · exact ⟨⟨hstate, hdetectors, h.lastSweepNs, rfl, rfl⟩, hevents⟩

/-- One call of the later run. -/
theorem Later.step (hΔ : NS_PER_SEC ∣ Δ) (h : e.Later Δ e') {c : Call} (hc : c.InRange Δ) :
    (machine.step e c).1.Later Δ (machine.step e' (c.later Δ)).1 ∧
      (machine.step e' (c.later Δ)).2 = (machine.step e c).2.map (L4Event.later Δ) := by
  cases c with
  | process pkt => exact h.process hΔ hc
  | sweep now => exact h.sweep now

/-- **A run with its clock shifted by whole seconds** is the run, shifted: every call reports the
same events with their times shifted, and ends in the shifted state. -/
theorem Later.run (hΔ : NS_PER_SEC ∣ Δ) (h : e.Later Δ e') {calls : List Call}
    (hcalls : ∀ c ∈ calls, c.InRange Δ) :
    (machine.after e calls).Later Δ (machine.after e' (calls.map (Call.later Δ))) ∧
      (machine.log e' (calls.map (Call.later Δ))).map Machine.Entry.output
        = (machine.log e calls).map fun entry => entry.output.map (L4Event.later Δ) :=
  machine.simulates (Call.later Δ) (List.map (L4Event.later Δ)) id
    (fun _ _ c hc h => h.step hΔ (hcalls c hc)) h

end Engine
