/-
# The eBPF capture program

The TC classifier of `l4scope.bpf.c` (`handle`, `emitL4`) over the linear data of a socket
buffer, and the userspace decoder of its records (`EbpfSource.decode`).  A read through a
packet pointer is a read at an offset that the program has checked against the end of the
data; fixed-width C arithmetic is kept.  What record comes out for a frame is said by
`EbpfSource.record_tcp` for TCP, by `EbpfSource.record_udp` for UDP, and by
`EbpfSource.record_other` for everything else.
-/
import L4Scope.IpHeader

/-! ## The program -/

/-- The record the program writes to the ring buffer. -/
structure BpfL4Event where
  tsNanos : ℕ
  saddr : Octets 16
  daddr : Octets 16
  sport : UInt16
  dport : UInt16
  seq : UInt32
  ack : UInt32
  window : UInt32
  payloadLen : UInt32
  /-- 4 or 6. -/
  family : UInt8
  /-- 6 = TCP, 17 = UDP. -/
  proto : UInt8
  flags : UInt8
  ttl : UInt8
  iface : UInt32

/-- The socket buffer: its linear data and the interface it is on. -/
structure SkBuff where
  data : Bytes
  ifindex : UInt32

/-- What the helper calls return: the monotonic clock, and whether the ring buffer has room
for a record. -/
structure BpfHelpers where
  ktimeNs : ℕ
  reserved : Bool

/-- An address copied over the front of a zeroed array. -/
def copyAddr (addr : Bytes) : Octets 16 :=
  ⟨(addr ++ List.replicate 16 0).take 16, by simp⟩

/-- Fill in a record from the transport header at offset `l4`; `none` if nothing is
submitted. -/
def emitL4 (bpf : BpfHelpers) (skb : SkBuff) (l4 : ℕ) (proto : UInt8) (totPayload : UInt16)
    (family ttl : UInt8) (saddr daddr : Bytes) : Option BpfL4Event :=
  if bpf.reserved then
    let e : BpfL4Event := {
      tsNanos := bpf.ktimeNs, saddr := copyAddr saddr, daddr := copyAddr daddr
      sport := 0, dport := 0, seq := 0, ack := 0, window := 0, payloadLen := 0
      family, proto, flags := 0, ttl, iface := skb.ifindex }
    if proto = IPPROTO_TCP then
      if skb.data.length < l4 + 20 then none
      else
        let doff : UInt32 := (byteAt skb.data (l4 + 12) >>> 4).toUInt32 * 4
        some { e with
          sport := be16At skb.data l4
          dport := be16At skb.data (l4 + 2)
          seq := be32At skb.data (l4 + 4)
          ack := be32At skb.data (l4 + 8)
          window := (be16At skb.data (l4 + 14)).toUInt32
          flags := byteAt skb.data (l4 + 13) &&& 0x3f
          payloadLen := if doff < totPayload.toUInt32 then totPayload.toUInt32 - doff else 0 }
    else
      if skb.data.length < l4 + 8 then none
      else
        let ulen := be16At skb.data (l4 + 4)
        some { e with
          sport := be16At skb.data l4
          dport := be16At skb.data (l4 + 2)
          payloadLen := if 8 < ulen then (ulen - 8).toUInt32 else 0 }
  else none

/-- The classifier: the record it submits for a packet, if any. -/
def handle (bpf : BpfHelpers) (skb : SkBuff) : Option BpfL4Event :=
  if skb.data.length < 14 then none
  else
    let hProto := be16At skb.data 12
    if hProto = ETH_P_IP then
      if skb.data.length < 14 + 20 then none
      else
        let protocol := byteAt skb.data (14 + 9)
        if protocol ≠ IPPROTO_TCP ∧ protocol ≠ IPPROTO_UDP then none
        else
          let ihl : UInt32 := (byteAt skb.data 14 &&& 0x0f).toUInt32 * 4
          let l4 := 14 + ihl.toNat
          let tot := be16At skb.data (14 + 2)
          let payload : UInt16 := if ihl < tot.toUInt32 then (tot.toUInt32 - ihl).toUInt16 else 0
          emitL4 bpf skb l4 protocol payload 4 (byteAt skb.data (14 + 8))
            (octetsAt 4 skb.data (14 + 12)).1 (octetsAt 4 skb.data (14 + 16)).1
    else if hProto = ETH_P_IPV6 then
      if skb.data.length < 14 + 40 then none
      else
        -- the transport header directly, no walk over extension headers
        let nh := byteAt skb.data (14 + 6)
        if nh ≠ IPPROTO_TCP ∧ nh ≠ IPPROTO_UDP then none
        else
          emitL4 bpf skb (14 + 40) nh (be16At skb.data (14 + 4)) 6 (byteAt skb.data (14 + 7))
            (octetsAt 16 skb.data (14 + 8)).1 (octetsAt 16 skb.data (14 + 24)).1
    else none

/-! ## Userspace -/

/-- The source's state that decoding reads: real time minus monotonic time. -/
structure EbpfSource where
  wallOffsetNs : ℕ

namespace EbpfSource

/-- The addresses of a record, by its family. -/
def addresses (family : UInt8) (saddr daddr : Octets 16) : Option (IpAddr × IpAddr) :=
  if family = 4 then some (.v4 (octetsAt 4 saddr.1 0), .v4 (octetsAt 4 daddr.1 0))
  else if family = 6 then some (.v6 saddr, .v6 daddr)
  else none

/-- Decode a record. -/
def decode (src : EbpfSource) (ev : BpfL4Event) : Option PacketMeta := do
  let proto ←
    if ev.proto = 6 then some Protocol.tcp
    else if ev.proto = 17 then some Protocol.udp
    else none
  let (srcIp, dstIp) ← addresses ev.family ev.saddr ev.daddr
  let (key, dir) := FlowKey.canonical ⟨srcIp, ev.sport⟩ ⟨dstIp, ev.dport⟩ proto
  return {
    tsNanos := (src.wallOffsetNs + ev.tsNanos) % 2 ^ 64, key, dir, proto, flags := ⟨ev.flags⟩
    seq := ev.seq, ack := ev.ack, window := ev.window, payloadLen := ev.payloadLen
    ttl := ev.ttl, iface := ev.iface }

/-- The record the backend yields for a packet, if any. -/
def record (src : EbpfSource) (bpf : BpfHelpers) (skb : SkBuff) : Option PacketMeta :=
  (handle bpf skb).bind src.decode

end EbpfSource

/-! ## Fixed-width arithmetic -/

/-- `a > b ? a - b : 0` is truncated subtraction. -/
theorem sub_or_zero (a b : UInt32) :
    (if b < a then a - b else 0) = UInt32.ofNat (a.toNat - b.toNat) := by
  apply UInt32.toNat_inj.1
  have ha := a.toNat_lt
  rw [UInt32.toNat_ofNat_of_lt' (show _ < 2 ^ 32 by omega)]
  by_cases h : b < a
  · rw [if_pos h]
    exact UInt32.toNat_sub_of_le _ _ (UInt32.le_of_lt h)
  · rw [if_neg h]
    have hle := UInt32.lt_iff_toNat_lt.not.1 h
    show 0 = _
    omega

/-- Four times a nibble, as a 32-bit length. -/
theorem toNat_nibble_mul_four (b : UInt8) (h : b.toNat < 16) :
    (b.toUInt32 * 4).toNat = b.toNat * 4 := by
  rw [UInt32.toNat_mul, UInt8.toNat_toUInt32]
  show b.toNat * 4 % 2 ^ 32 = b.toNat * 4
  omega

/-- The IPv4 payload length in 16 bits. -/
theorem toNat_ipv4Payload (tot : UInt16) (ihl : UInt32) :
    (if ihl < tot.toUInt32 then (tot.toUInt32 - ihl).toUInt16 else 0)
      = UInt16.ofNat (tot.toNat - ihl.toNat) := by
  have htot := tot.toNat_lt
  have hsub := sub_or_zero tot.toUInt32 ihl
  rw [UInt16.toNat_toUInt32] at hsub
  have hwiden : (if ihl < tot.toUInt32 then (tot.toUInt32 - ihl).toUInt16 else 0)
      = (if ihl < tot.toUInt32 then tot.toUInt32 - ihl else 0).toUInt16 := by
    split <;> rfl
  rw [hwiden, hsub]
  apply UInt16.toNat_inj.1
  rw [UInt32.toNat_toUInt16, UInt32.toNat_ofNat_of_lt' (show _ < 2 ^ 32 by omega),
    UInt16.toNat_ofNat']

/-- The payload that the program takes from a UDP length. -/
theorem udpPayload_eq (ulen : UInt16) :
    (if 8 < ulen then (ulen - 8).toUInt32 else 0) = UInt32.ofNat (ulen.toNat - 8) := by
  have hlt := ulen.toNat_lt
  apply UInt32.toNat_inj.1
  rw [UInt32.toNat_ofNat_of_lt' (show _ < 2 ^ 32 by omega)]
  by_cases h : 8 < ulen
  · rw [if_pos h, UInt16.toNat_toUInt32]
    exact UInt16.toNat_sub_of_le _ _ (UInt16.le_of_lt h)
  · rw [if_neg h]
    have hle := UInt16.lt_iff_toNat_lt.not.1 h
    have height : (8 : UInt16).toNat = 8 := rfl
    show 0 = _
    omega

/-! ## What comes out -/

/-- The address family the program writes. -/
def familyOf (et : UInt16) : UInt8 := if et = ETH_P_IP then 4 else 6

/-- The octets of an address. -/
def IpAddr.bytes : IpAddr → Bytes
  | v4 o => o.1
  | v6 o => o.1

/-- The ethertype of an Ethernet frame, and the bytes behind its header. -/
def etherType (data : Bytes) : UInt16 := be16At data 12

/-- What is behind the Ethernet header. -/
def etherBody (data : Bytes) : Bytes := data.drop 14

/-- What the IP header of an untagged frame says, and the bytes behind it. -/
def etherIp (data : Bytes) : IpHeader := ipHeader (etherType data) (etherBody data)

/-- What is behind the IP header, where the program takes it to end. -/
def etherL4 (data : Bytes) : Bytes := l4Of (etherType data) (etherBody data)

/-- The transport header lies behind both headers. -/
theorem etherL4_eq (data : Bytes) : etherL4 data = data.drop (14 + (etherIp data).len) := by
  rw [etherL4, l4Of, etherIp, etherBody, List.drop_drop]

/-- The frame holds an Ethernet header and an IP header without options. -/
def HoldsIp (data : Bytes) : Prop :=
  14 ≤ data.length ∧ IsIp (etherType data) ∧ minHeaderLen (etherType data) ≤ (etherBody data).length

instance (data : Bytes) : Decidable (HoldsIp data) := by unfold HoldsIp; infer_instance

/-- The bytes a frame needs for that. -/
theorem holdsIp_iff {data : Bytes} (hip : IsIp (etherType data)) :
    HoldsIp data ↔ 14 + minHeaderLen (etherType data) ≤ data.length := by
  have hbody : (etherBody data).length = data.length - 14 := List.length_drop
  have hpos : 20 ≤ minHeaderLen (etherType data) := by
    rw [minHeaderLen]
    split_ifs <;> omega
  rw [HoldsIp, hbody]
  constructor
  · rintro ⟨-, -, hmin⟩
    omega
  · intro h
    exact ⟨by omega, hip, by omega⟩

/-- What the classifier passes on. -/
theorem handle_eq (bpf : BpfHelpers) (skb : SkBuff) :
    handle bpf skb =
      if HoldsIp skb.data ∧
          ((etherIp skb.data).proto = IPPROTO_TCP ∨ (etherIp skb.data).proto = IPPROTO_UDP) then
        emitL4 bpf skb (14 + (etherIp skb.data).len) (etherIp skb.data).proto
          (.ofNat (etherIp skb.data).payload) (familyOf (etherType skb.data)) (etherIp skb.data).ttl
          (etherIp skb.data).src.bytes (etherIp skb.data).dst.bytes
      else none := by
  rw [handle]
  by_cases h14 : skb.data.length < 14
  · rw [if_pos h14, if_neg]
    rintro ⟨⟨hlen, -⟩, -⟩
    omega
  rw [if_neg h14]
  dsimp only
  by_cases h4 : be16At skb.data 12 = ETH_P_IP
  · have het : etherType skb.data = ETH_P_IP := h4
    have hholds : HoldsIp skb.data ↔ 14 + 20 ≤ skb.data.length := by
      rw [holdsIp_iff (Or.inl het), het]
      rfl
    have hproto : (ipv4Header (etherBody skb.data)).proto = byteAt skb.data (14 + 9) :=
      byteAt_drop _ _ _
    have hheader : etherIp skb.data = ipv4Header (etherBody skb.data) := by
      rw [etherIp, het, ipHeader_ipv4]
    rw [if_pos h4, het, hheader, hproto]
    by_cases h34 : skb.data.length < 14 + 20
    · rw [if_pos h34, if_neg (by rw [hholds]; omega)]
    by_cases hother :
        byteAt skb.data (14 + 9) ≠ IPPROTO_TCP ∧ byteAt skb.data (14 + 9) ≠ IPPROTO_UDP
    · rw [if_neg h34, if_pos hother, if_neg (by tauto)]
    have hihl :
        ((byteAt skb.data 14 &&& 0x0f).toUInt32 * 4).toNat = ihlLen (etherBody skb.data) := by
      rw [toNat_nibble_mul_four _ (by rw [toNat_and_fifteen]; omega), ihlLen, etherBody,
        byteAt_drop]
    rw [if_neg h34, if_neg hother, toNat_ipv4Payload, hihl, toNat_be16At,
      if_pos ⟨hholds.2 (by omega), by tauto⟩]
    simp only [ipv4Header, etherBody, beAt_drop, byteAt_drop, octetsAt_drop]
    rfl
  rw [if_neg h4]
  by_cases h6 : be16At skb.data 12 = ETH_P_IPV6
  · have het : etherType skb.data = ETH_P_IPV6 := h6
    have hholds : HoldsIp skb.data ↔ 14 + 40 ≤ skb.data.length := by
      rw [holdsIp_iff (Or.inr het), het]
      rfl
    have hproto : (ipv6Header (etherBody skb.data)).proto = byteAt skb.data (14 + 6) :=
      byteAt_drop _ _ _
    have hheader : etherIp skb.data = ipv6Header (etherBody skb.data) := by
      rw [etherIp, het, ipHeader_ipv6]
    rw [if_pos h6, het, hheader, hproto]
    by_cases h54 : skb.data.length < 14 + 40
    · rw [if_pos h54, if_neg (by rw [hholds]; omega)]
    by_cases hother :
        byteAt skb.data (14 + 6) ≠ IPPROTO_TCP ∧ byteAt skb.data (14 + 6) ≠ IPPROTO_UDP
    · rw [if_neg h54, if_pos hother, if_neg (by tauto)]
    rw [if_neg h54, if_neg hother, if_pos ⟨hholds.2 (by omega), by tauto⟩]
    simp only [ipv6Header, etherBody, beAt_drop, byteAt_drop, octetsAt_drop]
    rfl
  · rw [if_neg h6, if_neg]
    rintro ⟨⟨-, hip, -⟩, -⟩
    rcases hip with h | h
    · exact h4 h
    · exact h6 h

/-- Addresses survive the copy into the record and back. -/
theorem addresses_copyAddr (data : Bytes) :
    EbpfSource.addresses (familyOf (etherType data)) (copyAddr (etherIp data).src.bytes)
        (copyAddr (etherIp data).dst.bytes)
      = some ((etherIp data).src, (etherIp data).dst) := by
  have hfour (o : Octets 4) : octetsAt 4 (copyAddr o.1).1 0 = o := by
    have hcopy : (copyAddr o.1).1 = o.1 ++ List.replicate 12 0 := by
      show (o.1 ++ List.replicate 16 0).take 16 = _
      rw [List.take_append, o.2, List.take_of_length_le (by rw [o.2]; omega), List.take_replicate]
      rfl
    rw [hcopy]
    exact octetsAt_self o _
  have hsixteen (o : Octets 16) : copyAddr o.1 = o := Subtype.ext (List.take_left' o.2)
  rw [familyOf, etherIp, ipHeader]
  split_ifs
  · rw [EbpfSource.addresses, if_pos rfl]
    simp only [ipv4Header, IpAddr.bytes, hfour]
  · rw [EbpfSource.addresses, if_neg (by decide), if_pos rfl]
    simp only [ipv6Header, IpAddr.bytes, hsixteen]

namespace EbpfSource

variable (src : EbpfSource) {bpf : BpfHelpers} (skb : SkBuff)

/-- The wall-clock time the decoder gives a record. -/
def wallTime (bpf : BpfHelpers) : ℕ := (src.wallOffsetNs + bpf.ktimeNs) % 2 ^ 64

/-- A TCP header that is submitted and decoded. -/
theorem decode_emitL4_tcp (hres : bpf.reserved = true) (l4 n : ℕ) (ttl : UInt8)
    (hn : n < 2 ^ 16) :
    (emitL4 bpf skb l4 IPPROTO_TCP (.ofNat n) (familyOf (etherType skb.data)) ttl
        (etherIp skb.data).src.bytes (etherIp skb.data).dst.bytes).bind src.decode =
      if skb.data.length < l4 + 20 then none
      else some (tcpRecord (etherIp skb.data).src (etherIp skb.data).dst ttl (skb.data.drop l4)
        (n - dataOff (skb.data.drop l4)) (src.wallTime bpf) skb.ifindex) := by
  have hdoff : ((byteAt skb.data (l4 + 12) >>> 4).toUInt32 * 4).toNat
      = dataOff (skb.data.drop l4) := by
    have hb := (byteAt skb.data (l4 + 12)).toNat_lt
    rw [toNat_nibble_mul_four _ (by rw [toNat_shiftRight_four]; omega), dataOff, byteAt_drop]
  have hpayload : (UInt16.ofNat n).toNat = n := UInt16.toNat_ofNat_of_lt' hn
  rw [emitL4, if_pos hres, if_pos rfl]
  by_cases hlen : skb.data.length < l4 + 20
  · rw [if_pos hlen, if_pos hlen, Option.bind_none]
  · rw [if_neg hlen, if_neg hlen, Option.bind_some, sub_or_zero, hdoff, UInt16.toNat_toUInt32,
      hpayload]
    simp only [decode, addresses_copyAddr]
    simp only [tcpRecord, build, be16At, be32At, beAt_drop, byteAt_drop]
    rfl

/-- A UDP header that is submitted and decoded. -/
theorem decode_emitL4_udp (hres : bpf.reserved = true) (l4 : ℕ) (totPayload : UInt16)
    (ttl : UInt8) :
    (emitL4 bpf skb l4 IPPROTO_UDP totPayload (familyOf (etherType skb.data)) ttl
        (etherIp skb.data).src.bytes (etherIp skb.data).dst.bytes).bind src.decode =
      if skb.data.length < l4 + 8 then none
      else some (udpRecord (etherIp skb.data).src (etherIp skb.data).dst ttl (skb.data.drop l4)
        (src.wallTime bpf) skb.ifindex) := by
  rw [emitL4, if_pos hres, if_neg (by decide)]
  by_cases hlen : skb.data.length < l4 + 8
  · rw [if_pos hlen, if_pos hlen, Option.bind_none]
  · rw [if_neg hlen, if_neg hlen, Option.bind_some, udpPayload_eq, toNat_be16At]
    simp only [decode, addresses_copyAddr]
    simp only [udpRecord, build, be16At, beAt_drop]
    rfl

variable {skb}

/-- **The record of a TCP packet**: there is one if a TCP header fits where the IP header
length says it starts. -/
theorem record_tcp (hres : bpf.reserved = true)
    (hproto : (etherIp skb.data).proto = IPPROTO_TCP) :
    src.record bpf skb =
      if HoldsIp skb.data ∧ 20 ≤ (etherL4 skb.data).length then
        some (tcpRecord (etherIp skb.data).src (etherIp skb.data).dst (etherIp skb.data).ttl
          (etherL4 skb.data) ((etherIp skb.data).payload - dataOff (etherL4 skb.data))
          (src.wallTime bpf) skb.ifindex)
      else none := by
  have hlt : (etherIp skb.data).payload < 2 ^ 16 := ipHeader_payload_lt _ _
  rw [record, handle_eq, etherL4_eq, List.length_drop]
  by_cases hip : HoldsIp skb.data
  · rw [if_pos ⟨hip, Or.inl hproto⟩, hproto, src.decode_emitL4_tcp skb hres _ _ _ hlt]
    by_cases hlen : skb.data.length < 14 + (etherIp skb.data).len + 20
    · rw [if_pos hlen, if_neg (by omega)]
    · rw [if_neg hlen, if_pos ⟨hip, by omega⟩]
  · rw [if_neg (by tauto), if_neg (by tauto), Option.bind_none]

/-- **The record of a UDP packet.** -/
theorem record_udp (hres : bpf.reserved = true)
    (hproto : (etherIp skb.data).proto = IPPROTO_UDP) :
    src.record bpf skb =
      if HoldsIp skb.data ∧ 8 ≤ (etherL4 skb.data).length then
        some (udpRecord (etherIp skb.data).src (etherIp skb.data).dst (etherIp skb.data).ttl
          (etherL4 skb.data) (src.wallTime bpf) skb.ifindex)
      else none := by
  rw [record, handle_eq, etherL4_eq, List.length_drop]
  by_cases hip : HoldsIp skb.data
  · rw [if_pos ⟨hip, Or.inr hproto⟩, hproto, src.decode_emitL4_udp skb hres]
    by_cases hlen : skb.data.length < 14 + (etherIp skb.data).len + 8
    · rw [if_pos hlen, if_neg (by omega)]
    · rw [if_neg hlen, if_pos ⟨hip, by omega⟩]
  · rw [if_neg (by tauto), if_neg (by tauto), Option.bind_none]

/-- Nothing comes out for another protocol. -/
theorem record_other
    (htcp : (etherIp skb.data).proto ≠ IPPROTO_TCP)
    (hudp : (etherIp skb.data).proto ≠ IPPROTO_UDP) :
    src.record bpf skb = none := by
  rw [record, handle_eq, if_neg (by tauto), Option.bind_none]

/-- Without room in the ring buffer nothing comes out. -/
theorem record_of_not_reserved (hfull : bpf.reserved = false) : src.record bpf skb = none := by
  have hemit (l4 : ℕ) (proto : UInt8) (n : UInt16) (family ttl : UInt8) (saddr daddr : Bytes) :
      emitL4 bpf skb l4 proto n family ttl saddr daddr = none := by
    rw [emitL4, hfull]
    rfl
  rw [record, handle_eq, hemit, ite_self, Option.bind_none]

/-- Nothing comes out for a frame that does not hold an IP header. -/
theorem record_of_not_holdsIp (hip : ¬ HoldsIp skb.data) : src.record bpf skb = none := by
  rw [record, handle_eq, if_neg (by tauto), Option.bind_none]

end EbpfSource
