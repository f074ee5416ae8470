/-
# Renaming addresses

An injective renaming of IP addresses may reverse the order of the two endpoints of a flow,
and with it the canonical key and the directions.  This file says what the renaming does to
keys, packets and flow state, and that every arm of `update` treats renamed states alike: the
flow is the same with its per-direction slots swapped where the order is reversed, and the
counters are the same under the renamed services.
-/
import L4Scope.FlowIdentity
import L4Scope.FlowStep

variable {r : IpAddr → IpAddr}

/-! ## Endpoints and keys -/

/-- The endpoint with its address renamed. -/
def Endpoint.rename (r : IpAddr → IpAddr) (ep : Endpoint) : Endpoint := { ep with ip := r ep.ip }

/-- Renaming keeps endpoints apart. -/
theorem Endpoint.rename_injective (hr : Function.Injective r) :
    Function.Injective (Endpoint.rename r) := by
  rintro ⟨ip, port⟩ ⟨ip', port'⟩ h
  simp only [rename, Endpoint.mk.injEq] at h
  rw [hr h.1, h.2]

namespace FlowKey

/-- The canonical key of the renamed endpoints. -/
def rename (r : IpAddr → IpAddr) (k : FlowKey) : FlowKey :=
  (canonical (k.low.rename r) (k.high.rename r) k.proto).1

/-- The renaming reverses the order of the endpoints. -/
def swapped (r : IpAddr → IpAddr) (k : FlowKey) : Bool := !(k.low.rename r ≤ k.high.rename r)

/-- Different canonical keys have different names. -/
theorem rename_injOn (hr : Function.Injective r) :
    Set.InjOn (rename r) {k | k.Canonical} := by
  rintro ⟨low, high, proto⟩ hk ⟨low', high', proto'⟩ hk' h
  have hep := Endpoint.rename_injective hr
  have hle : low ≤ high := hk
  have hle' : low' ≤ high' := hk'
  obtain ⟨hends, hproto⟩ := canonical_inj h
  have hproto : proto = proto' := hproto
  rcases hends with ⟨hl, hh⟩ | ⟨hl, hh⟩
  · have hlow : low = low' := hep hl
    have hhigh : high = high' := hep hh
    rw [hlow, hhigh, hproto]
  · -- crossed over, the two orders force all four to be one
    have hlow : low = high' := hep hl
    have hhigh : high = low' := hep hh
    have heq : low = high := le_antisymm hle (by rwa [hlow, hhigh])
    rw [hproto, ← hlow, ← hhigh, heq]

end FlowKey

/-! ## Packets -/

/-- The packet as observed between the renamed endpoints. -/
def PacketMeta.rename (r : IpAddr → IpAddr) (p : PacketMeta) : PacketMeta :=
  let c := FlowKey.canonical ((endpoints p).1.rename r) ((endpoints p).2.rename r) p.key.proto
  { p with key := c.1, dir := c.2 }

/-- The other direction, if `sw`. -/
def Direction.swapIf (sw : Bool) : Direction → Direction
  | .forward => if sw then .reverse else .forward
  | .reverse => if sw then .forward else .reverse

namespace PacketMeta

variable {p : PacketMeta}

/-- The renamed packet is observed between the renamed endpoints. -/
theorem endpoints_rename (p : PacketMeta) :
    endpoints (p.rename r) = ((endpoints p).1.rename r, (endpoints p).2.rename r) := by
  apply endpoints_of_canonical
  have hproto : (p.rename r).key.proto = p.key.proto := FlowKey.canonical_proto _ _ _
  rw [hproto]
  rfl

/-- The key of a renamed packet. -/
theorem key_rename (p : PacketMeta) : (p.rename r).key = p.key.rename r := by
  have hdef : (p.rename r).key = (FlowKey.canonical ((endpoints p).1.rename r)
    ((endpoints p).2.rename r) p.key.proto).1 := rfl
  rw [hdef, endpoints, FlowKey.rename]
  cases p.dir with
  | forward => rfl
  | reverse => exact FlowKey.canonical_comm _ _ _

/-- A packet is turned round exactly if its key is. -/
theorem dir_rename (hr : Function.Injective r) (h : p.Observed) :
    (p.rename r).dir = p.dir.swapIf (p.key.swapped r) := by
  obtain ⟨src, dst, h⟩ := h
  have hdef : (p.rename r).dir = (FlowKey.canonical ((endpoints p).1.rename r)
    ((endpoints p).2.rename r) p.key.proto).2 := rfl
  rw [hdef, endpoints_of_canonical h]
  rcases le_or_gt src dst with hle | hlt
  · rw [FlowKey.canonical_of_le hle] at h
    obtain ⟨hkey, hdir⟩ := Prod.mk.inj h
    rw [← hkey, ← hdir, FlowKey.swapped]
    rcases le_or_gt (src.rename r) (dst.rename r) with hle' | hlt'
    · simp [FlowKey.canonical_of_le hle', Direction.swapIf, hle']
    · simp [FlowKey.canonical_of_lt hlt', Direction.swapIf, hlt']
  · rw [FlowKey.canonical_of_lt hlt] at h
    obtain ⟨hkey, hdir⟩ := Prod.mk.inj h
    rw [← hkey, ← hdir, FlowKey.swapped]
    -- different endpoints keep different names, so one of the two orders is strict
    have hne : dst.rename r ≠ src.rename r := fun heq =>
      hlt.ne (Endpoint.rename_injective hr heq)
    rcases le_or_gt (src.rename r) (dst.rename r) with hle' | hlt'
    · have hlt' := lt_of_le_of_ne hle' hne.symm
      simp [FlowKey.canonical_of_le hle', Direction.swapIf, hlt']
    · simp [FlowKey.canonical_of_lt hlt', Direction.swapIf, hlt'.le]

/-- The guess is renamed. -/
theorem guessService_rename (p : PacketMeta) :
    guessService (p.rename r) = (guessService p).rename r := by
  have hproto : (p.rename r).proto = p.proto := rfl
  have hflags : (p.rename r).flags = p.flags := rfl
  rw [guessService, guessService, endpoints_rename, hproto, hflags]
  dsimp only [Endpoint.rename]
  split_ifs <;> rfl

end PacketMeta

/-! ## Flow state -/

namespace PerDir

variable {α : Type} {sw : Bool}

/-- The two slots exchanged, if `sw`. -/
def swapIf (sw : Bool) (a : PerDir α) : PerDir α := if sw then ⟨a.reverse, a.forward⟩ else a

/-- A value of a swapped pair. -/
theorem get_swapIf (a : PerDir α) (d : Direction) :
    (a.swapIf sw).get (d.swapIf sw) = a.get d := by
  cases sw <;> cases d <;> rfl

/-- Setting a value of a swapped pair. -/
theorem set_swapIf (a : PerDir α) (d : Direction) (x : α) :
    (a.swapIf sw).set (d.swapIf sw) x = (a.set d x).swapIf sw := by
  cases sw <;> cases d <;> rfl

theorem swapIf_pair (sw : Bool) (x : α) : swapIf sw ⟨x, x⟩ = ⟨x, x⟩ := by
  cases sw <;> rfl

end PerDir

/-- The flow under its new name, its directions exchanged if `sw`. -/
def FlowState.rename (r : IpAddr → IpAddr) (sw : Bool) (f : FlowState) : FlowState :=
  { f with
    service := f.service.rename r
    nextSeq := f.nextSeq.swapIf sw
    lastAck := f.lastAck.swapIf sw
    dupAckCount := f.dupAckCount.swapIf sw
    zeroWindow := f.zeroWindow.swapIf sw }

/-- The delta with its service renamed. -/
def PacketDelta.rename (r : IpAddr → IpAddr) (d : PacketDelta) : PacketDelta :=
  { d with service := d.service.map (Endpoint.rename r) }

/-- The host-wide counters under the new names: the same rates, and every half-open counter
under the renamed service. -/
structure Globals.Renamed (r : IpAddr → IpAddr) (g g' : Globals) : Prop where
  rstRate : g'.rstRate = g.rstRate
  newFlowRate : g'.newFlowRate = g.newFlowRate
  halfOpen : Table.Renames (fun _ => True) (Endpoint.rename r) (fun _ c => c) g.halfOpen g'.halfOpen

namespace Globals

variable {g g' : Globals}

theorem endpoint_rename_injOn (hr : Function.Injective r) :
    Set.InjOn (Endpoint.rename r) {_ep | True} :=
  (Endpoint.rename_injective hr).injOn

/-- The count of the renamed service. -/
theorem Renamed.halfOpenFor (h : g.Renamed r g') (ep : Endpoint) :
    g'.halfOpenFor (ep.rename r) = g.halfOpenFor ep := by
  rw [Globals.halfOpenFor, Globals.halfOpenFor, h.halfOpen.lookup ep trivial]
  cases g.halfOpen.lookup ep <;> rfl

/-- Raising a count, on both sides. -/
theorem Renamed.incHalfOpen (hr : Function.Injective r) (h : g.Renamed r g') (ep : Endpoint) :
    (g.incHalfOpen ep).Renamed r (g'.incHalfOpen (ep.rename r)) where
  rstRate := h.rstRate
  newFlowRate := h.newFlowRate
  halfOpen := by
    rw [Globals.incHalfOpen, Globals.incHalfOpen, h.halfOpenFor]
    exact h.halfOpen.insert (endpoint_rename_injOn hr) trivial _

/-- Lowering a count, on both sides. -/
theorem Renamed.decHalfOpen (hr : Function.Injective r) (h : g.Renamed r g') (ep : Endpoint) :
    (g.decHalfOpen ep).Renamed r (g'.decHalfOpen (ep.rename r)) := by
  have hlookup := h.halfOpen.lookup ep trivial
  rw [Globals.decHalfOpen, Globals.decHalfOpen, hlookup]
  cases g.halfOpen.lookup ep with
  | none => exact h
  | some c =>
      constructor
      · exact h.rstRate
      · exact h.newFlowRate
      · exact h.halfOpen.insert (endpoint_rename_injOn hr) trivial _

end Globals

/-- `w'` is `w` under the new names. -/
structure Work.Renamed (r : IpAddr → IpAddr) (sw : Bool) (w w' : Work) : Prop where
  flow : w'.flow = w.flow.rename r sw
  d : w'.d = w.d.rename r
  globals : w.globals.Renamed r w'.globals

/-! ## The arms of `update` on renamed states -/

section Arms

variable {sw : Bool} {w w' : Work} {pkt : PacketMeta}

/-- Clearing the mark, on both sides. -/
theorem Work.Renamed.clear (hr : Function.Injective r) (h : w.Renamed r sw w') :
    w.clear.Renamed r sw w'.clear := by
  obtain ⟨flow, g, d⟩ := w
  obtain ⟨flow', g', d'⟩ := w'
  obtain ⟨rfl, rfl, hg⟩ := h
  have hcounted : (flow.rename r sw).halfOpenCounted = flow.halfOpenCounted := rfl
  simp only [Work.clear, clearHalfOpen, hcounted]
  split_ifs
  · exact ⟨rfl, rfl, hg.decHalfOpen hr _⟩
  · exact ⟨rfl, rfl, hg⟩

/-- The sequence number behind a SYN, in the renamed direction. -/
theorem expectAfterSyn_renamed (hdir : (pkt.rename r).dir = pkt.dir.swapIf sw)
    (h : w.Renamed r sw w') :
    (expectAfterSyn pkt w).Renamed r sw (expectAfterSyn (pkt.rename r) w') := by
  obtain ⟨flow, g, d⟩ := w
  obtain ⟨flow', g', d'⟩ := w'
  obtain ⟨rfl, rfl, hg⟩ := h
  refine ⟨?_, rfl, hg⟩
  simp only [expectAfterSyn, FlowState.rename, hdir, PerDir.set_swapIf]
  rfl

/-- The SYN arm, on both sides. -/
theorem onSynOnly_renamed (hr : Function.Injective r)
    (hdir : (pkt.rename r).dir = pkt.dir.swapIf sw) (h : w.Renamed r sw w') :
    (onSynOnly pkt w).Renamed r sw (onSynOnly (pkt.rename r) w') := by
  apply expectAfterSyn_renamed hdir
  obtain ⟨flow, g, d⟩ := w
  obtain ⟨flow', g', d'⟩ := w'
  obtain ⟨rfl, rfl, hg⟩ := h
  have hsyn : (flow.rename r sw).synTimeNs = flow.synTimeNs := rfl
  have hcounted : (flow.rename r sw).halfOpenCounted = flow.halfOpenCounted := rfl
  simp only [hsyn, hcounted]
  split_ifs
  · exact ⟨rfl, rfl, hg.incHalfOpen hr _⟩
  · exact ⟨rfl, rfl, hg⟩
  · exact ⟨rfl, rfl, hg⟩

/-- The SYN-ACK arm. -/
theorem onSynAck_renamed (hdir : (pkt.rename r).dir = pkt.dir.swapIf sw)
    (h : w.Renamed r sw w') :
    (onSynAck pkt w).Renamed r sw (onSynAck (pkt.rename r) w') := by
  apply expectAfterSyn_renamed hdir
  obtain ⟨flow, g, d⟩ := w
  obtain ⟨flow', g', d'⟩ := w'
  obtain ⟨rfl, rfl, hg⟩ := h
  simp only [FlowState.rename]
  cases flow.synTimeNs <;> exact ⟨rfl, rfl, hg⟩

/-- The RST arm. -/
theorem onRst_renamed (hr : Function.Injective r) (h : w.Renamed r sw w') :
    (onRst pkt w).Renamed r sw (onRst (pkt.rename r) w') := by
  obtain ⟨flow, g, d⟩ := w
  obtain ⟨flow', g', d'⟩ := w'
  obtain ⟨rfl, rfl, hg⟩ := h
  have hrate : Globals.Renamed r { g with rstRate := g.rstRate.record pkt.tsNanos }
      { g' with rstRate := g'.rstRate.record pkt.tsNanos } :=
    ⟨by rw [hg.rstRate], hg.newFlowRate, hg.halfOpen⟩
  have hstate : (flow.rename r sw).state = flow.state := rfl
  simp only [onRst, hstate]
  split_ifs <;> exact Work.Renamed.clear hr ⟨rfl, rfl, hrate⟩

/-- The end of a handshake. -/
theorem completeHandshake_renamed (hr : Function.Injective r) (h : w.Renamed r sw w') :
    (completeHandshake pkt w).Renamed r sw (completeHandshake (pkt.rename r) w') := by
  have hflags : (pkt.rename r).flags = pkt.flags := rfl
  obtain ⟨flow, g, d⟩ := w
  obtain ⟨flow', g', d'⟩ := w'
  obtain ⟨rfl, rfl, hg⟩ := h
  simp only [completeHandshake, FlowState.rename, hflags]
  split_ifs
  · exact Work.Renamed.clear hr ⟨rfl, rfl, hg⟩
  · exact ⟨rfl, rfl, hg⟩

/-- A FIN. -/
theorem closeOnFin_renamed (hr : Function.Injective r) (h : w.Renamed r sw w') :
    (closeOnFin pkt w).Renamed r sw (closeOnFin (pkt.rename r) w') := by
  have hflags : (pkt.rename r).flags = pkt.flags := rfl
  obtain ⟨flow, g, d⟩ := w
  obtain ⟨flow', g', d'⟩ := w'
  obtain ⟨rfl, rfl, hg⟩ := h
  simp only [closeOnFin, FlowState.rename, hflags]
  split_ifs
  · exact Work.Renamed.clear hr ⟨rfl, rfl, hg⟩
  · exact ⟨rfl, rfl, hg⟩

/-- The window check. -/
theorem zeroWindowEdge_renamed (hdir : (pkt.rename r).dir = pkt.dir.swapIf sw)
    (h : w.Renamed r sw w') :
    (zeroWindowEdge pkt w).Renamed r sw (zeroWindowEdge (pkt.rename r) w') := by
  have hwindow : (pkt.rename r).window = pkt.window := rfl
  obtain ⟨flow, g, d⟩ := w
  obtain ⟨flow', g', d'⟩ := w'
  obtain ⟨rfl, rfl, hg⟩ := h
  simp only [zeroWindowEdge, FlowState.rename, hwindow, hdir, PerDir.get_swapIf,
    PerDir.set_swapIf]
  split_ifs <;> exact ⟨rfl, rfl, hg⟩

/-- The tracking of data. -/
theorem trackSegment_renamed (hdir : (pkt.rename r).dir = pkt.dir.swapIf sw)
    (h : w.Renamed r sw w') :
    (trackSegment pkt w).Renamed r sw (trackSegment (pkt.rename r) w') := by
  have hseq : (pkt.rename r).seq = pkt.seq := rfl
  have hlen : (pkt.rename r).payloadLen = pkt.payloadLen := rfl
  obtain ⟨flow, g, d⟩ := w
  obtain ⟨flow', g', d'⟩ := w'
  obtain ⟨rfl, rfl, hg⟩ := h
  have hnext : (flow.rename r sw).nextSeq = flow.nextSeq.swapIf sw := rfl
  simp only [trackSegment, hseq, hlen, hdir, hnext, PerDir.get_swapIf, PerDir.set_swapIf]
  split_ifs
  · cases flow.nextSeq.get pkt.dir with
    | none => exact ⟨rfl, rfl, hg⟩
    | some exp =>
        dsimp only
        split_ifs
        all_goals
          refine ⟨?_, rfl, hg⟩
          simp only [FlowState.rename, PerDir.set_swapIf]
  · exact ⟨rfl, rfl, hg⟩

/-- The tracking of acknowledgements. -/
theorem trackDupAck_renamed (hdir : (pkt.rename r).dir = pkt.dir.swapIf sw)
    (h : w.Renamed r sw w') :
    (trackDupAck pkt w).Renamed r sw (trackDupAck (pkt.rename r) w') := by
  have hflags : (pkt.rename r).flags = pkt.flags := rfl
  have hack : (pkt.rename r).ack = pkt.ack := rfl
  have hlen : (pkt.rename r).payloadLen = pkt.payloadLen := rfl
  obtain ⟨flow, g, d⟩ := w
  obtain ⟨flow', g', d'⟩ := w'
  obtain ⟨rfl, rfl, hg⟩ := h
  simp only [trackDupAck, FlowState.rename, hflags, hack, hlen, hdir, PerDir.get_swapIf,
    PerDir.set_swapIf]
  split_ifs <;> exact ⟨rfl, rfl, hg⟩

/-- A packet does to a renamed flow what it does to the flow. -/
theorem ingest_renamed (hr : Function.Injective r)
    (hdir : (pkt.rename r).dir = pkt.dir.swapIf sw) (h : w.Renamed r sw w') :
    (ingest pkt w).Renamed r sw (ingest (pkt.rename r) w') := by
  have hproto : (pkt.rename r).proto = pkt.proto := rfl
  have hflags : (pkt.rename r).flags = pkt.flags := rfl
  have h0 : Work.Renamed r sw { w with flow := { w.flow with lastSeenNs := pkt.tsNanos } }
      { w' with flow := { w'.flow with lastSeenNs := pkt.tsNanos } } :=
    ⟨by rw [h.flow]; rfl, h.d, h.globals⟩
  rw [ingest, ingest, hproto]
  split_ifs
  · rw [updateTcp, updateTcp, hflags]
    split_ifs
    · exact onSynOnly_renamed hr hdir h0
    · exact onSynAck_renamed hdir h0
    · exact onRst_renamed hr h0
    · exact trackDupAck_renamed hdir (trackSegment_renamed hdir (zeroWindowEdge_renamed hdir
        (closeOnFin_renamed hr (completeHandshake_renamed hr h0))))
  · exact h0

/-- The flow a packet finds or creates under the new name. -/
theorem flowEntry_renamed {found : Option FlowState} {g g' : Globals} (h : g.Renamed r g') :
    (flowEntry pkt found g).Renamed r sw
      (flowEntry (pkt.rename r) (found.map (FlowState.rename r sw)) g') := by
  cases found with
  | some f => exact ⟨rfl, rfl, h⟩
  | none =>
      refine ⟨?_, rfl, h.rstRate, ?_, h.halfOpen⟩
      · simp only [flowEntry, Option.map_none, FlowState.new, FlowState.rename,
          PerDir.swapIf_pair, PacketMeta.guessService_rename]
        rfl
      · simp only [flowEntry, Option.map_none, h.newFlowRate]
        rfl

end Arms
