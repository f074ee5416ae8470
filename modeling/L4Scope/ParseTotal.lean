/-
# Parsing never panics

`parseFrame` returns on every byte string: no index or slice is out of range, no subtraction
goes below zero and no sum or product leaves 64 bits.  The one place where that needs an
argument is the walk over IPv6 extension headers, whose offset stays below the end of the
payload the header announces.

A record it returns is sound (`PacketMeta.Sound`): its key is canonical and names its protocol,
its flags are flags, and its payload is shorter than an IP packet can be, which keeps the end of a
segment ahead of its start (`parseFrame_safe`).
-/
import L4Scope.FlowIdentity
import L4Scope.Parse

open Outcome

/-! ## The transport header -/

/-- The flow key of a record names the record's own protocol. -/
def PacketMeta.WellKeyed (pkt : PacketMeta) : Prop := pkt.key.proto = pkt.proto

instance : DecidablePred PacketMeta.WellKeyed :=
  fun pkt => inferInstanceAs (Decidable (pkt.key.proto = pkt.proto))

/-- What holds of every record of a frame. -/
structure PacketMeta.Sound (pkt : PacketMeta) : Prop where
  keyed : pkt.WellKeyed
  ordered : pkt.key.low ≤ pkt.key.high
  reversed : pkt.dir = .reverse → pkt.key.low ≠ pkt.key.high
  flags : pkt.flags.bits &&& 0x3f = pkt.flags.bits
  payload : pkt.payloadLen.toNat < 2 ^ 16

/-- A record that is built is sound. -/
theorem build_sound (srcIp dstIp : IpAddr) (sport dport : UInt16) (proto : Protocol)
    {flags : TcpFlags} (seq ack window : UInt32) {payloadLen : ℕ} (ttl : UInt8) (tsNanos : ℕ)
    (iface : UInt32) (hflags : flags.bits &&& 0x3f = flags.bits) (hlen : payloadLen < 2 ^ 16) :
    (build srcIp sport dstIp dport proto flags seq ack window (.ofNat payloadLen) ttl tsNanos
      iface).Sound where
  keyed := FlowKey.canonical_proto _ _ _
  ordered := FlowKey.canonical_canonical _ _ _
  reversed := FlowKey.low_ne_high_of_reverse _
  flags := hflags
  payload := by
    show (UInt32.ofNat payloadLen).toNat < 2 ^ 16
    rw [UInt32.toNat_ofNat_of_lt' (show payloadLen < 2 ^ 32 by omega)]
    exact hlen

/-- The last stage does not panic. -/
theorem finish_ensures (protoNum : UInt8) (srcIp dstIp : IpAddr) (ttl : UInt8) (l4 : Bytes)
    {n : ℕ} (hn : n < 2 ^ 16) (tsNanos : ℕ) (iface : UInt32) :
    (finish protoNum srcIp dstIp ttl l4 n tsNanos iface).Ensures PacketMeta.Sound := by
  by_cases htcp : protoNum = IPPROTO_TCP
  · rw [htcp, finish_tcp]
    split
    · trivial
    · apply build_sound
      · show byteAt l4 13 &&& 0x3f &&& 0x3f = byteAt l4 13 &&& 0x3f
        rw [UInt8.and_assoc]
        rfl
      · omega
  · by_cases hudp : protoNum = IPPROTO_UDP
    · rw [hudp, finish_udp]
      split
      · trivial
      · have hlen := beAt_lt 2 l4 4
        exact build_sound _ _ _ _ _ _ _ _ _ _ _ rfl (by omega)
    · rw [finish_other _ _ _ _ _ _ _ htcp hudp]
      trivial

/-! ## IP -/

/-- Nor does the IPv4 stage. -/
theorem parseIpv4_ensures (d : Bytes) (tsNanos : ℕ) (iface : UInt32) :
    (parseIpv4 d tsNanos iface).Ensures PacketMeta.Sound := by
  have htotal := beAt_lt 2 d 2
  rw [parseIpv4_eq]
  split
  · trivial
  · exact finish_ensures _ _ _ _ _ (by omega) _ _

/-- An extension header is at most 2048 bytes long. -/
theorem extHeader_ensures (d : Bytes) (next : UInt8) {off : ℕ} (hoff : off < 2 ^ 32) :
    (extHeader d next off).Ensures fun r => off ≤ r.2 ∧ r.2 ≤ off + 2048 := by
  rw [extHeader]
  by_cases hext : next = 0 ∨ next = 43 ∨ next = 60 ∨ next = 51
  · rw [if_pos hext, uadd_of_lt (by omega), value_bind]
    apply (ensures_getRange d off (off + 2)).bind
    intro hdr hlen
    rw [index_of_lt (by omega), value_bind, index_of_lt (by omega)]
    have hbyte := (byteAt hdr 1).toNat_lt
    -- both forms of the length field are below 2048
    have hlast : ∀ len ≤ 2048, (do
        let off ← uadd off len
        return (byteAt hdr 0, off)).Ensures fun r => off ≤ r.2 ∧ r.2 ≤ off + 2048 := by
      intro len hle
      rw [uadd_of_lt (by omega), value_bind]
      exact ⟨Nat.le_add_right off len, Nat.add_le_add_left hle off⟩
    by_cases hah : byteAt hdr 0 = 51
    · rw [if_pos hah, value_bind, uadd_of_lt (by omega), value_bind, umul_of_lt (by omega),
        value_bind]
      exact hlast _ (by omega)
    · rw [if_neg hah, value_bind, uadd_of_lt (by omega), value_bind, umul_of_lt (by omega),
        value_bind]
      exact hlast _ (by omega)
  · rw [if_neg hext]
    by_cases hfrag : next = 44
    · rw [if_pos hfrag]
      apply (ensures_getByte d off).bind
      intro b _
      rw [uadd_of_lt (by omega), value_bind]
      simp only [pure_eq, Ensures]
      omega
    · rw [if_neg hfrag]
      trivial

/-- The walk stays below `stop`, and never goes back. -/
theorem walkExt_ensures (d : Bytes) {stop : ℕ} (hstop : stop < 2 ^ 32) (n : ℕ) (next : UInt8)
    {off : ℕ} (hoff : off < 2 ^ 32) : (walkExt d stop n next off).Ensures fun r => off ≤ r.2 := by
  induction n generalizing next off with
  | zero => exact Nat.le_refl off
  | succ n ih =>
      rw [walkExt]
      split
      · exact Nat.le_refl off
      · apply (extHeader_ensures d next hoff).bind
        intro r hr
        by_cases hle : stop ≤ r.2
        · simp only [hle, if_true]
          trivial
        · simp only [hle, if_false]
          exact (ih r.1 (by omega)).imp fun r' hr' => hr.1.trans hr'

/-- Nor does the IPv6 stage. -/
theorem parseIpv6_ensures (d : Bytes) (tsNanos : ℕ) (iface : UInt32) :
    (parseIpv6 d tsNanos iface).Ensures PacketMeta.Sound := by
  have hlen := beAt_lt 2 d 4
  rw [parseIpv6_eq]
  split
  · trivial
  · apply (walkExt_ensures d (by omega) 8 (byteAt d 6) (by omega)).bind
    intro r hr
    apply (ensures_getFrom d r.2).bind
    intro l4 _
    -- behind the fixed header no more is left than its length field says
    exact finish_ensures _ _ _ _ _ (by omega) _ _

/-! ## The link layer -/

/-- A checked half word does not panic. -/
theorem be16_ensures (b : Bytes) : (be16 b).Ensures fun _ => True := by
  rw [be16]
  apply (ensures_getByte b 0).bind
  intro b0 _
  apply (ensures_getByte b 1).bind
  intro b1 _
  trivial

/-- Tags come off without overflow. -/
theorem stripTags_ensures (data : Bytes) (n : ℕ) (et : UInt16) {off : ℕ}
    (hoff : off + 4 * n < 2 ^ 64) : (stripTags data n et off).Ensures fun _ => True := by
  induction n generalizing et off with
  | zero => trivial
  | succ n ih =>
      rw [stripTags_succ data n et (by omega)]
      split
      · trivial
      · split
        · trivial
        · exact ih _ (by omega)

/-- The framing comes off without panic. -/
theorem stripLink_ensures (linktype : UInt32) (data : Bytes) :
    (stripLink linktype data).Ensures fun _ => True := by
  by_cases hether : linktype = DLT_EN10MB
  · rw [stripLink, if_pos hether]
    apply (ensures_getFrom data 12).bind
    intro b _
    apply (be16_ensures b).bind
    intro et _
    apply (stripTags_ensures data 2 et (by omega)).bind
    intro r _
    apply (ensures_getFrom data r.2).bind
    intro l3 _
    trivial
  · by_cases hsll : linktype = DLT_LINUX_SLL
    · rw [hsll, stripLink_sll]
      split <;> trivial
    · by_cases hraw : linktype = DLT_RAW
      · rw [hraw, stripLink_raw, versionEthertype]
        split_ifs <;> trivial
      · by_cases hnull : linktype = DLT_NULL
        · rw [hnull, stripLink_null, versionEthertype]
          split_ifs <;> trivial
        · rw [stripLink_other hether hsll hraw hnull]
          trivial

/-- Parsing a frame returns, whatever its bytes. -/
theorem parseFrame_sound (linktype : UInt32) (data : Bytes) (tsNanos : ℕ) (iface : UInt32) :
    (parseFrame linktype data tsNanos iface).Ensures PacketMeta.Sound := by
  rw [parseFrame]
  apply (stripLink_ensures linktype data).bind
  intro r _
  show (if r.1 = ETH_P_IP then parseIpv4 r.2 tsNanos iface
    else if r.1 = ETH_P_IPV6 then parseIpv6 r.2 tsNanos iface
    else reject).Ensures PacketMeta.Sound
  split
  · exact parseIpv4_ensures _ _ _
  · split
    · exact parseIpv6_ensures _ _ _
    · trivial

/-- A record has the key of its endpoints. -/
theorem parseFrame_ensures (linktype : UInt32) (data : Bytes) (tsNanos : ℕ) (iface : UInt32) :
    (parseFrame linktype data tsNanos iface).Ensures PacketMeta.WellKeyed :=
  (parseFrame_sound linktype data tsNanos iface).imp fun _ h => h.keyed

/-- The parser never panics. -/
theorem parseFrame_ne_panic (linktype : UInt32) (data : Bytes) (tsNanos : ℕ) (iface : UInt32) :
    parseFrame linktype data tsNanos iface ≠ panic :=
  (parseFrame_ensures linktype data tsNanos iface).ne_panic

/-- The record of a frame, if it holds one. -/
def frameRecord (linktype : UInt32) (data : Bytes) (tsNanos : ℕ) (iface : UInt32) :
    Option PacketMeta :=
  (parseFrame linktype data tsNanos iface).toOption (parseFrame_ne_panic linktype data tsNanos iface)

/-- The end of a segment is ahead of its start by the length of the payload. -/
theorem PacketMeta.Sound.seqDiff_end {pkt : PacketMeta} (h : pkt.Sound) :
    (seqDiff (pkt.seq + pkt.payloadLen) pkt.seq).toInt = pkt.payloadLen.toNat := by
  have hlen := h.payload
  have hsub : pkt.seq + pkt.payloadLen - pkt.seq = pkt.payloadLen := by
    apply UInt32.toNat_inj.1
    rw [UInt32.toNat_sub, UInt32.toNat_add]
    have hseq := pkt.seq.toNat_lt
    omega
  rw [seqDiff, hsub, ← Int32.toInt_toBitVec, UInt32.toBitVec_toInt32, BitVec.toInt_eq_toNat_cond]
  have hnat : pkt.payloadLen.toBitVec.toNat = pkt.payloadLen.toNat := rfl
  rw [hnat, if_pos (by omega)]

/-- **Parsing is safe.**  Whatever the link type and the bytes, `parseFrame` does not panic; a
record it returns is sound, and the end of its segment is less than half the sequence space ahead
of its start. -/
theorem parseFrame_safe (linktype : UInt32) (data : Bytes) (tsNanos : ℕ) (iface : UInt32) :
    parseFrame linktype data tsNanos iface ≠ panic ∧
    ∀ m, parseFrame linktype data tsNanos iface = value m →
      m.key.proto = m.proto ∧ m.key.low ≤ m.key.high ∧
      (m.dir = .reverse → m.key.low ≠ m.key.high) ∧ m.flags.bits &&& 0x3f = m.flags.bits ∧
      m.payloadLen.toNat < 2 ^ 16 ∧
      (seqDiff (m.seq + m.payloadLen) m.seq).toInt = m.payloadLen.toNat := by
  refine ⟨parseFrame_ne_panic linktype data tsNanos iface, fun m hm => ?_⟩
  have h := parseFrame_sound linktype data tsNanos iface
  rw [hm] at h
  have h : m.Sound := h
  exact ⟨h.keyed, h.ordered, h.reversed, h.flags, h.payload, h.seqDiff_end⟩
