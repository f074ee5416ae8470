/-
# Snap lengths

Capture tools cut each frame at a snap length.  A TCP frame cut behind its first 20 TCP
header bytes (`Snap`) is still decoded, but its payload length is clamped to the bytes
captured: the record is that of the whole frame exactly if the cut keeps the payload
(`Snap.captured_eq_iff`).

A lossless stream in order (`InOrder`) is reported without retransmissions and reordering, unless
one of its connection requests carries payload: the flow expects `seq + 1` after every SYN, so the
segment that carries on behind such a payload counts as out of order (`SeqTrack.ahead_of_synData`).
`Snap.captured_exact` puts the two together.
-/
import L4Scope.IpHeader
import L4Scope.SeqTracking

open Outcome

/-! ## Cutting behind the headers -/

/-- Records of the same header differ in the payload length only. -/
theorem tcpRecord_inj {src dst : IpAddr} {ttl : UInt8} {l4 : Bytes} {m n tsNanos : ℕ}
    {iface : UInt32} (hm : m < 2 ^ 32) (hn : n < 2 ^ 32) :
    tcpRecord src dst ttl l4 m tsNanos iface = tcpRecord src dst ttl l4 n tsNanos iface ↔
      m = n := by
  constructor
  · intro h
    have hlen : UInt32.ofNat m = UInt32.ofNat n := congrArg PacketMeta.payloadLen h
    have hnat := congrArg UInt32.toNat hlen
    rwa [UInt32.toNat_ofNat_of_lt' hm, UInt32.toNat_ofNat_of_lt' hn] at hnat
  · rintro rfl
    rfl

/-- The version is read off the first byte. -/
theorem versionEthertype_value {b : UInt8} {x l3 : Bytes} {et : UInt16}
    (h : versionEthertype b x = value (et, l3)) :
    l3 = x ∧ ∀ y, versionEthertype b y = value (et, y) := by
  unfold versionEthertype at h ⊢
  split_ifs at h ⊢
  · cases h
    exact ⟨rfl, fun _ => rfl⟩
  · cases h
    exact ⟨rfl, fun _ => rfl⟩

/-- A cut behind the link header and the byte after it leaves the link header as it was. -/
theorem stripLink_take {linktype : UInt32} {data l3 : Bytes} {et : UInt16}
    (h : stripLink linktype data = value (et, l3)) :
    ∃ c, c ≤ data.length ∧ l3 = data.drop c ∧
      ∀ n, c < n → stripLink linktype (data.take n) = value (et, (data.take n).drop c) := by
  have hlen (n : ℕ) : (data.take n).length = min n data.length := List.length_take
  by_cases hether : linktype = DLT_EN10MB
  · subst hether
    rw [stripLink_ethernet] at h
    -- two tags, one or none: each is looked for before the bytes behind it are
    split_ifs at h with h14 htag h18 htag2 h22 <;> cases h
    · refine ⟨22, by omega, rfl, fun n hn => ?_⟩
      rw [stripLink_ethernet, hlen, be16At_take (by omega), be16At_take (by omega),
        be16At_take (by omega), if_neg (by omega), if_neg (not_not.2 htag), if_neg (by omega),
        if_neg (not_not.2 htag2), if_neg (by omega)]
    · refine ⟨18, by omega, rfl, fun n hn => ?_⟩
      rw [stripLink_ethernet, hlen, be16At_take (by omega), be16At_take (by omega),
        if_neg (by omega), if_neg (not_not.2 htag), if_neg (by omega), if_pos htag2]
    · refine ⟨14, by omega, rfl, fun n hn => ?_⟩
      rw [stripLink_ethernet, hlen, be16At_take (by omega), if_neg (by omega), if_pos htag]
  by_cases hsll : linktype = DLT_LINUX_SLL
  · subst hsll
    rw [stripLink_sll] at h
    split_ifs at h with h16
    cases h
    refine ⟨16, by omega, rfl, fun n hn => ?_⟩
    rw [stripLink_sll, hlen, be16At_take (by omega), if_neg (by omega)]
  by_cases hraw : linktype = DLT_RAW
  · subst hraw
    rw [stripLink_raw] at h
    split_ifs at h with h1
    obtain ⟨rfl, hver⟩ := versionEthertype_value h
    refine ⟨0, by omega, rfl, fun n hn => ?_⟩
    rw [stripLink_raw, hlen, byteAt_take hn, if_neg (by omega), hver]
    rfl
  by_cases hnull : linktype = DLT_NULL
  · subst hnull
    rw [stripLink_null] at h
    split_ifs at h with h5
    obtain ⟨rfl, hver⟩ := versionEthertype_value h
    refine ⟨4, by omega, rfl, fun n hn => ?_⟩
    rw [stripLink_null, hlen, byteAt_take hn, if_neg (by omega), hver]
  · rw [stripLink_other hether hsll hraw hnull] at h
    cases h

/-! ## A frame and its cut -/

/-- A TCP frame that is decoded when whole, and a snap length that keeps the link header, the
IP header and the first 20 bytes of the TCP header. -/
structure Snap where
  linktype : UInt32
  frame : Bytes
  tsNanos : ℕ
  iface : UInt32
  /-- The ethertype of the frame, and its bytes behind the link header. -/
  et : UInt16
  l3 : Bytes
  link : stripLink linktype frame = value (et, l3)
  /-- TCP comes right after the IP header. -/
  tcp : (ipHeader et l3).proto = IPPROTO_TCP
  present : LengthPresent et l3
  /-- The record of the whole frame. -/
  pkt : PacketMeta
  decoded : parseFrame linktype frame tsNanos iface = value pkt
  snaplen : ℕ
  headers : frame.length - l3.length + (ipHeader et l3).len + 20 ≤ snaplen

namespace Snap

variable (c : Snap)

/-- What the capture makes of the frame. -/
def captured : Outcome PacketMeta :=
  parseFrame c.linktype (c.frame.take c.snaplen) c.tsNanos c.iface

/-- The length of the segment's payload. -/
def segmentLen : ℕ := (ipHeader c.et c.l3).payload - dataOff (l4Of c.et c.l3)

/-- The length of the frame up to the end of the IP packet. -/
def packetEnd : ℕ :=
  c.frame.length - c.l3.length + (ipHeader c.et c.l3).len + (ipHeader c.et c.l3).payload

/-- The cut keeps the payload, or there is none. -/
def KeepsPayload : Prop := c.packetEnd ≤ c.snaplen ∨ c.segmentLen = 0

instance : Decidable c.KeepsPayload := by unfold KeepsPayload; infer_instance

/-- The segment is no connection request with payload. -/
def NoSynData : Prop := c.pkt.flags.syn = true → c.segmentLen = 0

instance : Decidable c.NoSynData := by unfold NoSynData; infer_instance

/-- The checks the whole frame passed. -/
theorem decoded_checks : HeaderOk c.et c.l3 ∧ 20 ≤ (l4Of c.et c.l3).length ∧
    20 ≤ dataOff (l4Of c.et c.l3) := by
  have h := c.decoded
  rw [parseFrame_tcp c.link _ _ c.tcp] at h
  by_contra hbad
  rw [if_neg hbad] at h
  cases h

/-- The record of the whole frame. -/
theorem pkt_eq : c.pkt = tcpRecord (ipHeader c.et c.l3).src (ipHeader c.et c.l3).dst
    (ipHeader c.et c.l3).ttl (l4Of c.et c.l3) c.segmentLen c.tsNanos c.iface := by
  have h := c.decoded
  have hle := c.present.payload_le c.decoded_checks.1
  rw [parseFrame_tcp c.link _ _ c.tcp, if_pos c.decoded_checks, min_eq_left hle] at h
  exact (Outcome.value.inj h).symm

/-- The record of the cut frame: the payload is clamped to the bytes captured. -/
theorem captured_eq : c.captured = value (tcpRecord (ipHeader c.et c.l3).src
    (ipHeader c.et c.l3).dst (ipHeader c.et c.l3).ttl (l4Of c.et c.l3)
    (min (ipHeader c.et c.l3).payload
      (c.snaplen - (c.frame.length - c.l3.length + (ipHeader c.et c.l3).len))
        - dataOff (l4Of c.et c.l3)) c.tsNanos c.iface) := by
  obtain ⟨cut, hcut, hl3, htake⟩ := stripLink_take c.link
  obtain ⟨hok, hlen, hdoff⟩ := c.decoded_checks
  have hpresent := c.present.payload_le hok
  have hheaders := c.headers
  have hlink : c.frame.length - c.l3.length = cut := by
    rw [hl3, List.length_drop]
    omega
  rw [hlink] at hheaders ⊢
  have hstrip := htake c.snaplen (by omega)
  rw [List.drop_take, ← hl3] at hstrip
  rw [captured]
  set k := c.snaplen - cut with hk
  obtain ⟨hip, hmin, hihl, hle⟩ := hok
  -- the IP header and the bytes behind it, in the cut frame
  have hhdr : ipHeader c.et (c.l3.take k) = ipHeader c.et c.l3 := ipHeader_take (by omega)
  have htrans : l4Of c.et (c.l3.take k)
      = (l4Of c.et c.l3).take (k - (ipHeader c.et c.l3).len) := by
    rw [l4Of, hhdr, List.drop_take, ← l4Of]
  have hlen' : (l4Of c.et (c.l3.take k)).length
      = min (k - (ipHeader c.et c.l3).len) (l4Of c.et c.l3).length := by
    rw [htrans, List.length_take]
  have hproto : (ipHeader c.et (c.l3.take k)).proto = IPPROTO_TCP := by rw [hhdr, c.tcp]
  have hok' : HeaderOk c.et (c.l3.take k) := by
    rw [length_l4Of] at hlen
    rw [HeaderOk, hhdr, List.length_take]
    refine ⟨hip, ?_, hihl, ?_⟩
    · omega
    · omega
  rw [parseFrame_tcp hstrip _ _ hproto, hhdr, hlen', htrans, dataOff_take (by omega),
    if_pos ⟨hok', by omega, hdoff⟩, tcpRecord_take (by omega)]
  have hmin' : min (ipHeader c.et c.l3).payload
      (min (k - (ipHeader c.et c.l3).len) (l4Of c.et c.l3).length)
        = min (ipHeader c.et c.l3).payload (k - (ipHeader c.et c.l3).len) := by
    omega
  rw [hmin', hk, Nat.sub_sub]

/-- A segment fits an IP packet. -/
theorem segmentLen_lt : c.segmentLen < 2 ^ 16 := by
  have h := ipHeader_payload_lt c.et c.l3
  rw [segmentLen]
  omega

/-- The record of the whole frame has the real payload length. -/
theorem pkt_payloadLen : c.pkt.payloadLen.toNat = c.segmentLen := by
  have h := c.segmentLen_lt
  rw [c.pkt_eq]
  exact UInt32.toNat_ofNat_of_lt' (show c.segmentLen < 2 ^ 32 by omega)

/-- **The cut frame gives the record of the whole frame exactly if the cut keeps the
payload.** -/
theorem captured_eq_iff : c.captured = value c.pkt ↔ c.KeepsPayload := by
  have hlt := ipHeader_payload_lt c.et c.l3
  have hheaders := c.headers
  have hdoff := c.decoded_checks.2.2
  rw [c.captured_eq, c.pkt_eq, Outcome.value.injEq, tcpRecord_inj (by omega)
    (by have := c.segmentLen_lt; omega), KeepsPayload, packetEnd, segmentLen]
  omega

end Snap

/-! ## A lossless stream in order -/

/-- The packet is one of flow `k` in direction `dir`. -/
def IsOn (k : FlowKey) (dir : Direction) (op : Op) : Prop :=
  ∃ p, op = .update p ∧ p.key = k ∧ p.dir = dir

/-- The segments of a lossless TCP stream, in order: each carries on where the one before
ended, and a SYN takes a number before its payload.  `next` is the number of the next byte,
`none` before the first segment. -/
def InOrder (k : FlowKey) (dir : Direction) : Option UInt32 → List Op → Prop
  | _, [] => True
  | next, .sweep _ :: ops => InOrder k dir next ops
  | next, .update p :: ops =>
    if p.key = k ∧ p.dir = dir then
      p.proto = .tcp ∧
        if p.flags.syn then InOrder k dir (some (p.seq + 1 + p.payloadLen)) ops
        else if p.flags.rst ∨ p.payloadLen = 0 then InOrder k dir next ops
        else (next = none ∨ next = some p.seq) ∧
          InOrder k dir (some (p.seq + p.payloadLen)) ops
    else InOrder k dir next ops

instance decidableInOrder (k : FlowKey) (dir : Direction) :
    ∀ next ops, Decidable (InOrder k dir next ops)
  | _, [] => inferInstanceAs (Decidable True)
  | next, .sweep _ :: ops => decidableInOrder k dir next ops
  | next, .update p :: ops =>
    have := decidableInOrder k dir next ops
    have := decidableInOrder k dir (some (p.seq + 1 + p.payloadLen)) ops
    have := decidableInOrder k dir (some (p.seq + p.payloadLen)) ops
    inferInstanceAs (Decidable (if p.key = k ∧ p.dir = dir then
      p.proto = .tcp ∧
        if p.flags.syn then InOrder k dir (some (p.seq + 1 + p.payloadLen)) ops
        else if p.flags.rst ∨ p.payloadLen = 0 then InOrder k dir next ops
        else (next = none ∨ next = some p.seq) ∧
          InOrder k dir (some (p.seq + p.payloadLen)) ops
    else InOrder k dir next ops))

/-- The step reports neither a retransmission nor reordering on the stream. -/
def Step.Smooth {F : Type} (k : FlowKey) (dir : Direction) (e : Step F) : Prop :=
  ∀ p d, e.input = .update p → e.output = .updated d → p.key = k → p.dir = dir →
    d.isRetransmit = false ∧ d.isOutOfOrder = false

/-- The flow expects the next byte of the stream, or nothing yet. -/
def Expects (dir : Direction) (next : Option UInt32) (t : SeqTrack) : Prop :=
  t.nextSeq.get dir = none ∨ t.nextSeq.get dir = next

/-- The next data segment of a stream in order moves the expectation to its end. -/
theorem SeqTrack.onData_inOrder {t : SeqTrack} {dir : Direction} {next : Option UInt32}
    {seq len : UInt32} (h : Expects dir next t) (hseq : next = none ∨ next = some seq)
    (hpos : 0 < len.toNat) (hlen : len.toNat < 2 ^ 31) :
    (t.onData dir seq len).1.nextSeq.get dir = some (seq + len) ∧
      (t.onData dir seq len).2 = ⟨false, false⟩ := by
  have hwrap (x : UInt32) : Serial.wrap x.toNat = x := by
    have hx := x.toNat_lt
    have h := Serial.toNat_wrap x.toNat
    apply UInt32.toNat_inj.1
    omega
  -- the segment starts at the mark, so it is neither late nor ahead
  have hmark : t.nextSeq.get dir = none ∨ t.nextSeq.get dir = some seq := by
    rcases h with h | h
    · exact Or.inl h
    · rcases hseq with hnext | hnext
      · exact Or.inl (h.trans hnext)
      · exact Or.inr (h.trans hnext)
  have hend : Serial.wrap (seq.toNat + len.toNat) = seq + len := by
    rw [← Serial.wrap_add, hwrap]
  let g : StreamSeg := ⟨seq.toNat, len.toNat⟩
  rcases hmark with hnone | hsome
  · have hmark : t.nextSeq.get dir = (none : Option ℤ).map Serial.wrap := hnone
    have hnear : StreamSeg.Near none g := by
      rintro h ⟨⟩
    have h := SeqTrack.onData_wrap hmark hnear rfl hpos
    rw [hwrap] at h
    obtain ⟨hnext, hflags⟩ := h
    refine ⟨?_, hflags⟩
    rw [hnext, ← hend]
    rfl
  · have hmark : t.nextSeq.get dir = (some (seq.toNat : ℤ)).map Serial.wrap := by
      rw [hsome, Option.map_some, hwrap]
    have hnear : StreamSeg.Near (some (seq.toNat : ℤ)) g := by
      rintro h ⟨⟩
      constructor
      · show (seq.toNat : ℤ) - 2 ^ 31 ≤ seq.toNat
        omega
      · show (seq.toNat : ℤ) + len.toNat < seq.toNat + 2 ^ 31
        omega
    have h := SeqTrack.onData_wrap hmark hnear rfl hpos
    rw [hwrap] at h
    obtain ⟨hnext, hflags⟩ := h
    refine ⟨?_, ?_⟩
    · rw [hnext, ← hend]
      simp only [StreamSeg.raise, Option.map_some, g]
      rw [max_eq_right (by omega)]
    · rw [hflags]
      simp [StreamSeg.late, StreamSeg.ahead, g]

/-- The number behind some bytes is ahead of the number of the first. -/
theorem seqDiff_add_pos (exp : UInt32) {len : UInt32} (hpos : 0 < len.toNat)
    (hlen : len.toNat < 2 ^ 31) : 0 < seqDiff (exp + len) exp := by
  have hsub : exp + len - exp = len := by
    rw [UInt32.add_comm, UInt32.add_sub_cancel]
  have hint : len.toInt32.toInt = len.toNat := by
    rw [← Int32.toInt_toBitVec, UInt32.toBitVec_toInt32, BitVec.toInt_eq_toNat_cond]
    exact if_pos (show 2 * len.toNat < 2 ^ 32 by omega)
  rw [seqDiff, hsub, Int32.lt_iff_toInt_lt, hint]
  exact Int.natCast_pos.2 hpos

/-- **Behind a connection request with payload the stream is reported out of order**, however the
two segments were captured: the flow expects the number of the first byte of the payload. -/
theorem SeqTrack.ahead_of_synData (t : SeqTrack) {p q : PacketMeta} (hp : p.proto = .tcp)
    (hsyn : p.flags.syn = true) (hpos : 0 < p.payloadLen.toNat)
    (hlen : p.payloadLen.toNat < 2 ^ 31) (hq : isData q = true) (hdir : q.dir = p.dir)
    (hseq : q.seq = p.seq + 1 + p.payloadLen) :
    ((t.onPacket p).1.onPacket q).2.ahead = true := by
  simp only [isData, Bool.and_eq_true, decide_eq_true_eq, Bool.not_eq_true'] at hq
  obtain ⟨⟨⟨hproto, hbare⟩, hrst⟩, hdata⟩ := hq
  have hexp : (t.onPacket p).1.nextSeq.get q.dir = some (p.seq + 1) := by
    rw [onPacket, if_pos hp, if_pos hsyn, hdir]
    exact PerDir.get_set _ _ _
  rw [onPacket, if_pos hproto, if_neg (by simp [hbare]), if_neg (by simp [hrst]), if_pos hdata,
    onData, hexp, hseq]
  exact decide_eq_true (seqDiff_add_pos _ hpos hlen)

section Stream

variable {F : Type} [F64 F] {k : FlowKey} {dir : Direction}

/-- What a packet of the stream does: the flags stay down, and the flow expects what the
stream brings next, if the packet is no connection request with payload. -/
theorem Expects.onPacket {t : SeqTrack} {next : Option UInt32} {p : PacketMeta} {ops : List Op}
    (h : Expects dir next t) (hin : InOrder k dir next (.update p :: ops)) (hkey : p.key = k)
    (hdir : p.dir = dir) (hbare : p.flags.syn = true → p.payloadLen = 0)
    (hlen : p.payloadLen.toNat < 2 ^ 31) :
    ∃ next', Expects dir next' (t.onPacket p).1 ∧ InOrder k dir next' ops ∧
      (t.onPacket p).2 = ⟨false, false⟩ := by
  rw [InOrder, if_pos ⟨hkey, hdir⟩] at hin
  obtain ⟨hproto, hin⟩ := hin
  rw [SeqTrack.onPacket, if_pos hproto, hdir]
  by_cases hsyn : p.flags.syn = true
  · rw [if_pos hsyn, hbare hsyn, UInt32.add_zero] at hin
    rw [if_pos hsyn]
    exact ⟨some (p.seq + 1), Or.inr (PerDir.get_set _ _ _), hin, rfl⟩
  rw [if_neg hsyn] at hin ⊢
  by_cases hquiet : p.flags.rst = true ∨ p.payloadLen = 0
  · rw [if_pos hquiet] at hin
    refine ⟨next, ?_⟩
    rcases hquiet with hrst | hzero
    · rw [if_pos hrst]
      exact ⟨h, hin, rfl⟩
    · rw [hzero, if_neg (UInt32.lt_irrefl 0), ite_self]
      exact ⟨h, hin, rfl⟩
  · rw [if_neg hquiet] at hin
    obtain ⟨hrst, hzero⟩ := not_or.1 hquiet
    have hpos : 0 < p.payloadLen := UInt32.pos_iff_ne_zero.2 hzero
    have hposNat : 0 < p.payloadLen.toNat := UInt32.lt_iff_toNat_lt.1 hpos
    obtain ⟨hnext, hflags⟩ := SeqTrack.onData_inOrder h hin.1 hposNat hlen
    rw [if_neg hrst, if_pos hpos]
    exact ⟨some (p.seq + p.payloadLen), Or.inr hnext, hin.2, hflags⟩

namespace EngineState

/-- A sweep evicts the flow or leaves what it expects. -/
theorem expects_sweep {s : EngineState F} {next : Option UInt32}
    (h : Expects dir next (seqTrackOf (s.flows.lookup k))) (now : ℕ) :
    Expects dir next (seqTrackOf ((s.sweep now).1.flows.lookup k)) := by
  rcases seqTrack_sweep s now k with hgone | hsame
  · rw [hgone]
    left
    cases dir <;> rfl
  · rw [hsame]
    exact h

/-- One operation of a stream in order. -/
theorem expects_step {s : EngineState F} {next : Option UInt32} {op : Op} {ops : List Op}
    (h : Expects dir next (seqTrackOf (s.flows.lookup k))) (hin : InOrder k dir next (op :: ops))
    (hbare : ∀ p, op = .update p → p.key = k → p.dir = dir → p.flags.syn = true → p.payloadLen = 0)
    (hlen : ∀ p, op = .update p → p.key = k → p.dir = dir → p.payloadLen.toNat < 2 ^ 31) :
    Step.Smooth k dir (Step.of s op) ∧ ∃ next', InOrder k dir next' ops ∧
      Expects dir next' (seqTrackOf ((machine.step s op).1.flows.lookup k)) := by
  cases op with
  | sweep now =>
      refine ⟨?_, next, hin, ?_⟩
      · intro p d hp
        cases hp
      · rw [step_sweep]
        exact expects_sweep h now
  | update p =>
      rw [step_update]
      by_cases hkey : p.key = k
      · by_cases hdir : p.dir = dir
        · obtain ⟨next', hexp, hin', hflags⟩ :=
            h.onPacket hin hkey hdir (hbare p rfl hkey hdir) (hlen p rfl hkey hdir)
          subst hkey
          refine ⟨?_, next', hin', ?_⟩
          · rintro p' d ⟨⟩ ⟨⟩ - -
            have hd : (s.update p).2.2.seqFlags = ⟨false, false⟩ := by
              rw [update_delta, seqFlags_flowStep, hflags]
            exact ⟨congrArg SeqFlags.late hd, congrArg SeqFlags.ahead hd⟩
          · rw [seqTrack_update]
            exact hexp
        · -- the other direction of the flow has its own expectation
          rw [InOrder, if_neg (by tauto)] at hin
          subst hkey
          refine ⟨?_, next, hin, ?_⟩
          · rintro p' d ⟨⟩ - - hdir'
            exact absurd hdir' hdir
          · rw [seqTrack_update, Expects, SeqTrack.onPacket_nextSeq_ne _ (Ne.symm hdir)]
            exact h
      · rw [InOrder, if_neg (by tauto)] at hin
        refine ⟨?_, next, hin, ?_⟩
        · rintro p' d ⟨⟩ - hkey' -
          exact absurd hkey' hkey
        · rw [seqTrack_update_ne _ hkey]
          exact h

/-- **A lossless stream in order is reported without retransmissions and reordering**, if none of
its connection requests carries payload. -/
theorem inOrder_smooth {s : EngineState F} {next : Option UInt32} {ops : List Op}
    (h : Expects dir next (seqTrackOf (s.flows.lookup k))) (hin : InOrder k dir next ops)
    (hbare : ∀ p, .update p ∈ ops → p.key = k → p.dir = dir → p.flags.syn = true →
      p.payloadLen = 0)
    (hlen : ∀ p, .update p ∈ ops → p.key = k → p.dir = dir → p.payloadLen.toNat < 2 ^ 31) :
    ∀ e ∈ machine.log s ops, Step.Smooth k dir e := by
  induction ops generalizing s next with
  | nil =>
      intro e he
      exact absurd he List.not_mem_nil
  | cons op ops ih =>
      obtain ⟨hsmooth, next', hin', h'⟩ := expects_step h hin
        (fun p hp => hbare p (by rw [hp]; exact List.mem_cons_self))
        (fun p hp => hlen p (by rw [hp]; exact List.mem_cons_self))
      intro e he
      rw [Machine.log_cons] at he
      rcases List.mem_cons.1 he with rfl | he
      · exact hsmooth
      · exact ih h' hin' (fun p hp => hbare p (List.mem_cons_of_mem _ hp))
          (fun p hp => hlen p (List.mem_cons_of_mem _ hp)) e he

end EngineState

end Stream

/-! ## A stream seen through a snap length -/

/-- What reaches the flow table: a frame of the stream, cut by the capture, or anything
else. -/
inductive Seen where
  | frame (c : Snap)
  | other (op : Op)

namespace Seen

/-- The operation if nothing was cut. -/
def wire : Seen → Op
  | frame c => .update c.pkt
  | other op => op

/-- The operation after the cut. -/
def captured : Seen → Option Op
  | frame c => match c.captured with
    | .value m => some (.update m)
    | _ => none
  | other op => some op

/-- If every cut keeps the payload, the capture changes nothing. -/
theorem captured_eq_wire {seen : List Seen} (h : ∀ c, .frame c ∈ seen → c.KeepsPayload) :
    seen.filterMap captured = seen.map wire := by
  induction seen with
  | nil => rfl
  | cons a seen ih =>
      have hrest := ih fun c hc => h c (List.mem_cons_of_mem _ hc)
      have ha : a.captured = some a.wire := by
        cases a with
        | frame c => rw [captured, c.captured_eq_iff.2 (h c List.mem_cons_self)]; rfl
        | other op => rfl
      rw [List.filterMap_cons, ha, hrest, List.map_cons]

end Seen

/-- **What a snap length does to TCP frames and to streams.**  A cut behind the headers gives
the record of the whole frame, and the real payload length, exactly if it keeps the payload.
A lossless stream in order, interleaved with anything else and seen through such cuts only,
is reported without retransmissions and reordering if no SYN of the stream carries payload. -/
theorem Snap.captured_exact {F : Type} [F64 F] :
    (∀ c : Snap, (c.captured = value c.pkt ↔ c.KeepsPayload) ∧
      ∃ m, c.captured = value m ∧ (m.payloadLen.toNat = c.segmentLen ↔ c.KeepsPayload)) ∧
    (∀ (k : FlowKey) (dir : Direction) (next : Option UInt32) (s : EngineState F)
      (seen : List Seen), Expects dir next (seqTrackOf (s.flows.lookup k)) →
      InOrder k dir next (seen.map Seen.wire) → (∀ op, .other op ∈ seen → ¬ IsOn k dir op) →
      (∀ c, .frame c ∈ seen → c.KeepsPayload ∧ c.NoSynData) →
      ∀ e ∈ EngineState.machine.log s (seen.filterMap Seen.captured), Step.Smooth k dir e) := by
  refine ⟨fun c => ⟨c.captured_eq_iff, _, c.captured_eq, ?_⟩, ?_⟩
  · -- the payload length of the record of the cut frame
    have hlt := ipHeader_payload_lt c.et c.l3
    have hheaders := c.headers
    have hdoff := c.decoded_checks.2.2
    have hlen (n : ℕ) (hn : n < 2 ^ 32) : (tcpRecord (ipHeader c.et c.l3).src
        (ipHeader c.et c.l3).dst (ipHeader c.et c.l3).ttl (l4Of c.et c.l3) n c.tsNanos
        c.iface).payloadLen.toNat = n := UInt32.toNat_ofNat_of_lt' hn
    rw [hlen _ (by omega), KeepsPayload, packetEnd, segmentLen]
    omega
  · intro k dir next s seen hstart hin hother hkeeps
    rw [Seen.captured_eq_wire fun c hc => (hkeeps c hc).1]
    -- the packets of the stream are the records of its frames
    have hframe : ∀ p, .update p ∈ seen.map Seen.wire → p.key = k → p.dir = dir →
        ∃ c, .frame c ∈ seen ∧ p = c.pkt := by
      intro p hp hkey hdir
      obtain ⟨a, ha, hwire⟩ := List.mem_map.1 hp
      cases a with
      | frame c => exact ⟨c, ha, (Op.update.inj hwire).symm⟩
      | other op => exact absurd ⟨p, hwire, hkey, hdir⟩ (hother op ha)
    refine EngineState.inOrder_smooth hstart hin ?_ ?_
    · intro p hp hkey hdir hsyn
      obtain ⟨c, hc, rfl⟩ := hframe p hp hkey hdir
      apply UInt32.toNat_inj.1
      rw [c.pkt_payloadLen, (hkeeps c hc).2 hsyn]
      rfl
    · intro p hp hkey hdir
      obtain ⟨c, -, rfl⟩ := hframe p hp hkey hdir
      have hlt := c.segmentLen_lt
      rw [c.pkt_payloadLen]
      omega

set_option maxRecDepth 10000

namespace Sample

/-- A sample frame, seen through the live backend's snap length of 256 bytes. -/
def snap256 (seq n : ℕ)
    (h : stripLink DLT_EN10MB (frame 0x50 seq n) = value (ETH_P_IP, (frame 0x50 seq n).drop 14) ∧
      (ipHeader ETH_P_IP ((frame 0x50 seq n).drop 14)).proto = IPPROTO_TCP ∧
      LengthPresent ETH_P_IP ((frame 0x50 seq n).drop 14) ∧
      parseFrame DLT_EN10MB (frame 0x50 seq n) 0 0 = value (tcp 0 (ep 1 5000) (ep 2 80) TcpFlags.ACK
        (.ofNat seq) 1 64240 (.ofNat n)) ∧
      (frame 0x50 seq n).length - ((frame 0x50 seq n).drop 14).length
        + (ipHeader ETH_P_IP ((frame 0x50 seq n).drop 14)).len + 20 ≤ 256) : Snap where
  linktype := DLT_EN10MB
  frame := frame 0x50 seq n
  tsNanos := 0
  iface := 0
  et := ETH_P_IP
  l3 := (frame 0x50 seq n).drop 14
  link := h.1
  tcp := h.2.1
  present := h.2.2.1
  pkt := tcp 0 (ep 1 5000) (ep 2 80) TcpFlags.ACK (.ofNat seq) 1 64240 (.ofNat n)
  decoded := h.2.2.2.1
  snaplen := 256
  headers := h.2.2.2.2

/-- A segment with 100 bytes, captured whole. -/
def short : Snap := snap256 1000 100 (by decide)

/-- The one behind it, captured whole too. -/
def shortNext : Snap := snap256 1100 100 (by decide)

/-- A segment with 300 bytes, cut. -/
def long : Snap := snap256 1000 300 (by decide)

/-- The one behind it, cut too. -/
def longNext : Snap := snap256 1300 300 (by decide)

end Sample

/-- Two segments of 100 bytes in order, seen through a snap length of 256. -/
theorem Snap.captured_exact_short : Sample.short.captured = value Sample.short.pkt ∧
    ∀ e ∈ EngineState.machine.log (EngineState.new (DetectConfig.default ℚ))
      ([Seen.frame Sample.short, .frame Sample.shortNext].filterMap Seen.captured),
      Step.Smooth Sample.short.pkt.key .forward e := by
  obtain ⟨hparse, hstream⟩ := Snap.captured_exact (F := ℚ)
  refine ⟨(hparse Sample.short).1.2 (by decide), ?_⟩
  refine hstream _ .forward none _ [.frame Sample.short, .frame Sample.shortNext] (.inl rfl) ?_ ?_ ?_
  · decide
  · intro op hop
    simp at hop
  · intro c hc
    simp only [List.mem_cons, Seen.frame.injEq, List.not_mem_nil, or_false] at hc
    rcases hc with rfl | rfl <;> exact ⟨by decide, by decide⟩

/-- Two segments of 300 bytes in order, seen through a snap length of 256: the payload
length is clamped to 202, and the second segment is reported out of order. -/
theorem Snap.captured_clamped :
    Sample.long.captured ≠ value Sample.long.pkt ∧
    InOrder Sample.long.pkt.key .forward none
      ([Seen.frame Sample.long, .frame Sample.longNext].map Seen.wire) ∧
    ∃ e ∈ EngineState.machine.log (EngineState.new (DetectConfig.default ℚ))
      ([Seen.frame Sample.long, .frame Sample.longNext].filterMap Seen.captured),
      ¬ Step.Smooth Sample.long.pkt.key .forward e := by
  let m := { Sample.long.pkt with payloadLen := 202 }
  let m' := { Sample.longNext.pkt with payloadLen := 202 }
  have hcaptured : [Seen.frame Sample.long, .frame Sample.longNext].filterMap Seen.captured
      = [.update m, .update m'] := by decide
  refine ⟨?_, ?_, ?_⟩
  · rw [Ne, Sample.long.captured_eq_iff]
    decide
  · decide
  · rw [hcaptured]
    refine ⟨_, List.mem_cons_of_mem _ List.mem_cons_self, ?_⟩
    intro h
    exact absurd (h m' _ rfl rfl (by decide) (by decide)).2 (by decide)
