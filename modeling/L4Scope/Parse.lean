/-
# Header parsing

Link layer → IPv4/IPv6 → TCP/UDP → `PacketMeta`, after `parse.rs` of
`l4scope-capture`.  Each function of the source is followed by one equation that
says what it returns in terms of the bytes at fixed offsets; the modules above
use these equations and never unfold the functions.

`None` is `reject`; an index or a slice out of range, and an overflow, is `panic`.
-/
import L4Scope.Outcome
import L4Scope.Types

open Outcome

/-! ## Constants -/

/-- Ethernet II. -/
def DLT_EN10MB : UInt32 := 1
/-- Raw IP. -/
def DLT_RAW : UInt32 := 101
/-- Linux "cooked" v1. -/
def DLT_LINUX_SLL : UInt32 := 113
/-- BSD loopback (4-byte family header). -/
def DLT_NULL : UInt32 := 0

/-- IPv4. -/
def ETH_P_IP : UInt16 := 0x0800
/-- IPv6. -/
def ETH_P_IPV6 : UInt16 := 0x86DD
/-- A VLAN tag. -/
def ETH_P_VLAN : UInt16 := 0x8100
/-- An outer VLAN tag. -/
def ETH_P_QINQ : UInt16 := 0x88A8

/-- TCP. -/
def IPPROTO_TCP : UInt8 := 6
/-- UDP. -/
def IPPROTO_UDP : UInt8 := 17

/-! ## The record -/

/-- Assemble a record from the source and destination of a packet. -/
def build (srcIp : IpAddr) (sport : UInt16) (dstIp : IpAddr) (dport : UInt16) (proto : Protocol)
    (flags : TcpFlags) (seq ack window payloadLen : UInt32) (ttl : UInt8) (tsNanos : ℕ)
    (iface : UInt32) : PacketMeta :=
  let src : Endpoint := ⟨srcIp, sport⟩
  let dst : Endpoint := ⟨dstIp, dport⟩
  let (key, dir) := FlowKey.canonical src dst proto
  { tsNanos, key, dir, proto, flags, seq, ack, window, payloadLen, ttl, iface }

/-! ## The transport header -/

/-- The TCP header length its data offset announces. -/
def dataOff (l4 : Bytes) : ℕ := (byteAt l4 12 >>> 4).toNat * 4

/-- Decode the transport header `l4`, given the length of the IP payload. -/
def finish (protoNum : UInt8) (srcIp dstIp : IpAddr) (ttl : UInt8) (l4 : Bytes)
    (ipPayloadLen : ℕ) (tsNanos : ℕ) (iface : UInt32) : Outcome PacketMeta :=
  if protoNum = IPPROTO_TCP then
    if l4.length < 20 then reject
    else do
      let sport ← be16 (← sliceFrom l4 0)
      let dport ← be16 (← sliceFrom l4 2)
      let seq ← be32 (← sliceFrom l4 4)
      let ack ← be32 (← sliceFrom l4 8)
      let off ← umul ((← index l4 12) >>> 4).toNat 4
      if off < 20 then reject
      else do
        let flags : TcpFlags := ⟨(← index l4 13) &&& 0x3f⟩
        let window ← be16 (← sliceFrom l4 14)
        let payloadLen := UInt32.ofNat (ipPayloadLen - off)
        return build srcIp sport dstIp dport .tcp flags seq ack window.toUInt32 payloadLen ttl
          tsNanos iface
  else if protoNum = IPPROTO_UDP then
    if l4.length < 8 then reject
    else do
      let sport ← be16 (← sliceFrom l4 0)
      let dport ← be16 (← sliceFrom l4 2)
      let ulen ← be16 (← sliceFrom l4 4)
      let payloadLen := UInt32.ofNat (ulen.toNat - 8)
      return build srcIp sport dstIp dport .udp ⟨0⟩ 0 0 0 payloadLen ttl tsNanos iface
  else reject

/-- The record of a TCP header, with the given payload length. -/
def tcpRecord (srcIp dstIp : IpAddr) (ttl : UInt8) (l4 : Bytes) (payloadLen : ℕ) (tsNanos : ℕ)
    (iface : UInt32) : PacketMeta :=
  build srcIp (be16At l4 0) dstIp (be16At l4 2) .tcp ⟨byteAt l4 13 &&& 0x3f⟩ (be32At l4 4)
    (be32At l4 8) (be16At l4 14).toUInt32 (.ofNat payloadLen) ttl tsNanos iface

/-- The record of a UDP header. -/
def udpRecord (srcIp dstIp : IpAddr) (ttl : UInt8) (l4 : Bytes) (tsNanos : ℕ) (iface : UInt32) :
    PacketMeta :=
  build srcIp (be16At l4 0) dstIp (be16At l4 2) .udp ⟨0⟩ 0 0 0 (.ofNat (beAt 2 l4 4 - 8)) ttl
    tsNanos iface

/-- The high nibble of a byte. -/
theorem toNat_shiftRight_four (b : UInt8) : (b >>> 4).toNat = b.toNat / 16 := by
  rw [UInt8.toNat_shiftRight]
  exact Nat.shiftRight_eq_div_pow _ 4

/-- The low nibble of a byte. -/
theorem toNat_and_fifteen (b : UInt8) : (b &&& 0x0f).toNat = b.toNat % 16 := by
  rw [UInt8.toNat_and]
  exact Nat.and_two_pow_sub_one_eq_mod _ 4

/-- A TCP header has 60 bytes at most. -/
theorem dataOff_le (l4 : Bytes) : dataOff l4 ≤ 60 := by
  have hb := (byteAt l4 12).toNat_lt
  rw [dataOff, toNat_shiftRight_four]
  omega

/-! Bytes behind the transport header do not change its record. -/

/-- The offset lies in the first 20 bytes. -/
theorem dataOff_take {l4 : Bytes} {n : ℕ} (h : 20 ≤ n) : dataOff (l4.take n) = dataOff l4 := by
  rw [dataOff, byteAt_take (by omega), ← dataOff]

/-- So does all of a TCP record. -/
theorem tcpRecord_take {l4 : Bytes} {n : ℕ} (h : 20 ≤ n) (src dst : IpAddr) (ttl : UInt8)
    (payloadLen tsNanos : ℕ) (iface : UInt32) :
    tcpRecord src dst ttl (l4.take n) payloadLen tsNanos iface
      = tcpRecord src dst ttl l4 payloadLen tsNanos iface := by
  simp only [tcpRecord, be16At_take (show 0 + 2 ≤ n by omega),
    be16At_take (show 2 + 2 ≤ n by omega), be32At_take (show 4 + 4 ≤ n by omega),
    be32At_take (show 8 + 4 ≤ n by omega), be16At_take (show 14 + 2 ≤ n by omega),
    byteAt_take (show 13 < n by omega)]

/-- A UDP record lies in the first 8. -/
theorem udpRecord_take {l4 : Bytes} {n : ℕ} (h : 8 ≤ n) (src dst : IpAddr) (ttl : UInt8)
    (tsNanos : ℕ) (iface : UInt32) :
    udpRecord src dst ttl (l4.take n) tsNanos iface = udpRecord src dst ttl l4 tsNanos iface := by
  simp only [udpRecord, be16At_take (show 0 + 2 ≤ n by omega),
    be16At_take (show 2 + 2 ≤ n by omega), beAt_take l4 (show 4 + 2 ≤ n by omega)]

section Finish

variable (srcIp dstIp : IpAddr) (ttl : UInt8) (l4 : Bytes) (n tsNanos : ℕ) (iface : UInt32)

/-- What `finish` makes of a TCP header. -/
theorem finish_tcp :
    finish IPPROTO_TCP srcIp dstIp ttl l4 n tsNanos iface =
      if l4.length < 20 ∨ dataOff l4 < 20 then reject
      else value (tcpRecord srcIp dstIp ttl l4 (n - dataOff l4) tsNanos iface) := by
  by_cases hlen : l4.length < 20
  · rw [finish, if_pos rfl, if_pos hlen, if_pos (Or.inl hlen)]
  have hoff : umul (byteAt l4 12 >>> 4).toNat 4 = value (dataOff l4) := by
    apply umul_of_lt
    have h := dataOff_le l4
    simp only [dataOff] at h
    omega
  rw [finish, if_pos rfl, if_neg hlen]
  -- every read is inside the first 20 bytes
  rw [sliceFrom_of_le (by omega), sliceFrom_of_le (by omega), sliceFrom_of_le (by omega),
    sliceFrom_of_le (by omega), sliceFrom_of_le (by omega), index_of_lt (by omega),
    index_of_lt (by omega)]
  simp only [value_bind]
  rw [be16_drop (by omega), be16_drop (by omega), be16_drop (by omega), be32_drop (by omega),
    be32_drop (by omega), hoff]
  simp only [value_bind, pure_eq]
  by_cases hdoff : dataOff l4 < 20
  · rw [if_pos hdoff, if_pos (Or.inr hdoff)]
  · rw [if_neg hdoff, if_neg (by tauto)]
    rfl

/-- What `finish` makes of a UDP header. -/
theorem finish_udp :
    finish IPPROTO_UDP srcIp dstIp ttl l4 n tsNanos iface =
      if l4.length < 8 then reject
      else value (udpRecord srcIp dstIp ttl l4 tsNanos iface) := by
  rw [finish, if_neg (by decide), if_pos rfl]
  by_cases hlen : l4.length < 8
  · rw [if_pos hlen, if_pos hlen]
  rw [if_neg hlen, if_neg hlen, sliceFrom_of_le (by omega), sliceFrom_of_le (by omega),
    sliceFrom_of_le (by omega)]
  simp only [value_bind]
  rw [be16_drop (by omega), be16_drop (by omega), be16_drop (by omega)]
  simp only [value_bind, pure_eq, toNat_be16At]
  rfl

/-- Nothing but TCP and UDP is decoded. -/
theorem finish_other {protoNum : UInt8} (htcp : protoNum ≠ IPPROTO_TCP)
    (hudp : protoNum ≠ IPPROTO_UDP) :
    finish protoNum srcIp dstIp ttl l4 n tsNanos iface = reject := by
  rw [finish, if_neg htcp, if_neg hudp]

end Finish

/-! ## IPv4 -/

/-- The IPv4 header length its IHL field announces. -/
def ihlLen (d : Bytes) : ℕ := (byteAt d 0 &&& 0x0f).toNat * 4

/-- Decode an IPv4 packet. -/
def parseIpv4 (d : Bytes) (tsNanos : ℕ) (iface : UInt32) : Outcome PacketMeta :=
  if d.length < 20 then reject
  else do
    let ihl ← umul ((← index d 0) &&& 0x0f).toNat 4
    if ihl < 20 ∨ d.length < ihl then reject
    else do
      let totalLen := (← be16 (← sliceFrom d 2)).toNat
      let proto ← index d 9
      let ttl ← index d 8
      let src ← copyFromSlice 4 (← slice d 12 16)
      let dst ← copyFromSlice 4 (← slice d 16 20)
      -- payload length reported by IP, clamped to what was captured
      let ipPayload := min (totalLen - ihl) (← usub d.length ihl)
      let l4 ← sliceFrom d ihl
      finish proto (.v4 src) (.v4 dst) ttl l4 ipPayload tsNanos iface

/-- An IPv4 header has 60 bytes at most. -/
theorem ihlLen_le (d : Bytes) : ihlLen d ≤ 60 := by
  rw [ihlLen, toNat_and_fifteen]
  omega

/-- What `parseIpv4` hands to `finish`. -/
theorem parseIpv4_eq (d : Bytes) (tsNanos : ℕ) (iface : UInt32) :
    parseIpv4 d tsNanos iface =
      if d.length < 20 ∨ ihlLen d < 20 ∨ d.length < ihlLen d then reject
      else finish (byteAt d 9) (.v4 (octetsAt 4 d 12)) (.v4 (octetsAt 4 d 16)) (byteAt d 8)
        (d.drop (ihlLen d)) (min (beAt 2 d 2 - ihlLen d) (d.length - ihlLen d)) tsNanos iface := by
  by_cases hlen : d.length < 20
  · rw [parseIpv4, if_pos hlen, if_pos (Or.inl hlen)]
  have hihl : umul (byteAt d 0 &&& 0x0f).toNat 4 = value (ihlLen d) := by
    apply umul_of_lt
    have h := ihlLen_le d
    simp only [ihlLen] at h
    omega
  rw [parseIpv4, if_neg hlen, index_of_lt (by omega), value_bind, hihl, value_bind]
  by_cases hbad : ihlLen d < 20 ∨ d.length < ihlLen d
  · rw [if_pos hbad, if_pos (Or.inr hbad)]
  rw [if_neg hbad, if_neg (by tauto)]
  have hsrc := copyFromSlice_slice d 12 4 (by omega)
  have hdst := copyFromSlice_slice d 16 4 (by omega)
  rw [sliceFrom_of_le (by omega), value_bind, be16_drop (by omega), value_bind,
    index_of_lt (by omega), value_bind, index_of_lt (by omega), value_bind]
  rw [← Outcome.bind_assoc, hsrc, value_bind, ← Outcome.bind_assoc, hdst, value_bind,
    usub_of_le (by omega), value_bind, sliceFrom_of_le (by omega), value_bind, toNat_be16At]

/-! ## IPv6 -/

/-- One extension header: the next protocol number and the offset after it. -/
def extHeader (d : Bytes) (next : UInt8) (off : ℕ) : Outcome (UInt8 × ℕ) :=
  if next = 0 ∨ next = 43 ∨ next = 60 ∨ next = 51 then do
    -- hop-by-hop, routing, destination options, AH: (next, hdr_ext_len)
    let hdr ← getRange d off (← uadd off 2)
    let next ← index hdr 0
    let len ←
      if next = 51 then umul (← uadd (← index hdr 1).toNat 2) 4
      else umul (← uadd (← index hdr 1).toNat 1) 8
    return (next, ← uadd off len)
  else if next = 44 then do
    -- the fragment header is 8 bytes
    let next ← getByte d off
    return (next, ← uadd off 8)
  else reject

/-- Walk at most `n` extension headers to reach the transport header. -/
def walkExt (d : Bytes) (stop : ℕ) : ℕ → UInt8 → ℕ → Outcome (UInt8 × ℕ)
  | 0, next, off => value (next, off)
  | n + 1, next, off =>
    if next = IPPROTO_TCP ∨ next = IPPROTO_UDP then value (next, off)
    else do
      let (next, off) ← extHeader d next off
      if stop ≤ off then reject else walkExt d stop n next off

/-- Decode an IPv6 packet. -/
def parseIpv6 (d : Bytes) (tsNanos : ℕ) (iface : UInt32) : Outcome PacketMeta :=
  if d.length < 40 then reject
  else do
    let payloadLen := (← be16 (← sliceFrom d 4)).toNat
    let next ← index d 6
    let ttl ← index d 7
    let src ← copyFromSlice 16 (← slice d 8 24)
    let dst ← copyFromSlice 16 (← slice d 24 40)
    let stop := min (← uadd 40 payloadLen) d.length
    let (next, off) ← walkExt d stop 8 next 40
    let l4 ← getFrom d off
    finish next (.v6 src) (.v6 dst) ttl l4 (stop - off) tsNanos iface

/-- What `parseIpv6` does once the header is whole. -/
theorem parseIpv6_eq (d : Bytes) (tsNanos : ℕ) (iface : UInt32) :
    parseIpv6 d tsNanos iface =
      if d.length < 40 then reject
      else (do
        let stop := min (40 + beAt 2 d 4) d.length
        let (next, off) ← walkExt d stop 8 (byteAt d 6) 40
        let l4 ← getFrom d off
        finish next (.v6 (octetsAt 16 d 8)) (.v6 (octetsAt 16 d 24)) (byteAt d 7) l4
          (stop - off) tsNanos iface) := by
  by_cases hlen : d.length < 40
  · rw [parseIpv6, if_pos hlen, if_pos hlen]
  have hsrc := copyFromSlice_slice d 8 16 (by omega)
  have hdst := copyFromSlice_slice d 24 16 (by omega)
  have hadd : uadd 40 (beAt 2 d 4) = value (40 + beAt 2 d 4) := by
    apply uadd_of_lt
    have h := beAt_lt 2 d 4
    omega
  rw [parseIpv6, if_neg hlen, if_neg hlen, sliceFrom_of_le (by omega), value_bind,
    be16_drop (by omega), value_bind, index_of_lt (by omega), value_bind, index_of_lt (by omega),
    value_bind]
  rw [← Outcome.bind_assoc, hsrc, value_bind, ← Outcome.bind_assoc, hdst, value_bind,
    toNat_be16At, hadd, value_bind]

/-- A transport header right after the IPv6 header ends the walk at once. -/
theorem walkExt_transport {next : UInt8} (h : next = IPPROTO_TCP ∨ next = IPPROTO_UDP) (d : Bytes)
    (stop n off : ℕ) : walkExt d stop n next off = value (next, off) := by
  cases n with
  | zero => rfl
  | succ n => rw [walkExt, if_pos h]

/-- What `parseIpv6` hands to `finish` when there is no extension header. -/
theorem parseIpv6_transport {d : Bytes}
    (hnext : byteAt d 6 = IPPROTO_TCP ∨ byteAt d 6 = IPPROTO_UDP) (tsNanos : ℕ) (iface : UInt32) :
    parseIpv6 d tsNanos iface =
      if d.length < 40 then reject
      else finish (byteAt d 6) (.v6 (octetsAt 16 d 8)) (.v6 (octetsAt 16 d 24)) (byteAt d 7)
        (d.drop 40) (min (beAt 2 d 4) (d.length - 40)) tsNanos iface := by
  rw [parseIpv6_eq]
  by_cases hlen : d.length < 40
  · rw [if_pos hlen, if_pos hlen]
  have hstop : min (40 + beAt 2 d 4) d.length - 40 = min (beAt 2 d 4) (d.length - 40) := by omega
  rw [if_neg hlen, if_neg hlen]
  simp only [walkExt_transport hnext, value_bind]
  rw [getFrom_of_le (by omega), value_bind, hstop]

/-- Next-header values the walk knows how to skip. -/
def IsExtension (next : UInt8) : Prop :=
  next = 0 ∨ next = 43 ∨ next = 60 ∨ next = 51 ∨ next = 44

instance (next : UInt8) : Decidable (IsExtension next) := by unfold IsExtension; infer_instance

/-- Any other next header is not decoded. -/
theorem parseIpv6_other {d : Bytes} (htcp : byteAt d 6 ≠ IPPROTO_TCP)
    (hudp : byteAt d 6 ≠ IPPROTO_UDP) (hext : ¬ IsExtension (byteAt d 6)) (tsNanos : ℕ)
    (iface : UInt32) : parseIpv6 d tsNanos iface = reject := by
  rw [parseIpv6_eq]
  split
  · rfl
  simp only [IsExtension, not_or] at hext
  obtain ⟨h0, h43, h60, h51, h44⟩ := hext
  have hhdr : extHeader d (byteAt d 6) 40 = reject := by
    rw [extHeader, if_neg (by tauto), if_neg h44]
  simp only [walkExt, htcp, hudp, or_self, if_false, hhdr, reject_bind]

/-! ## The link layer -/

/-- Ethertypes of VLAN and QinQ tags. -/
def IsTag (et : UInt16) : Prop := et = ETH_P_VLAN ∨ et = ETH_P_QINQ

instance (et : UInt16) : Decidable (IsTag et) := by unfold IsTag; infer_instance

/-- Walk at most `n` VLAN/QinQ tags: the ethertype after them and its end. -/
def stripTags (data : Bytes) : ℕ → UInt16 → ℕ → Outcome (UInt16 × ℕ)
  | 0, et, off => value (et, off)
  | n + 1, et, off =>
    if IsTag et then do
      let et ← be16 (← getFrom data (← uadd off 2))
      stripTags data n et (← uadd off 4)
    else value (et, off)

/-- Remove the link-layer header: the L3 ethertype and the L3 slice. -/
def stripLink (linktype : UInt32) (data : Bytes) : Outcome (UInt16 × Bytes) :=
  if linktype = DLT_EN10MB then do
    let et ← be16 (← getFrom data 12)
    let (et, off) ← stripTags data 2 et 14
    return (et, ← getFrom data off)
  else if linktype = DLT_LINUX_SLL then do
    -- 16-byte cooked header, the ethertype at its end
    let et ← be16 (← getFrom data 14)
    return (et, ← getFrom data 16)
  else if linktype = DLT_RAW then do
    let v := (← getByte data 0) >>> 4
    if v = 4 then return (ETH_P_IP, data)
    else if v = 6 then return (ETH_P_IPV6, data)
    else reject
  else if linktype = DLT_NULL then do
    -- 4-byte host-endian address family: told by the IP version nibble instead
    let v := (← getByte data 4) >>> 4
    if v = 4 then return (ETH_P_IP, ← getFrom data 4)
    else if v = 6 then return (ETH_P_IPV6, ← getFrom data 4)
    else reject
  else reject

/-- Parse a full link-layer frame into a normalised record. -/
def parseFrame (linktype : UInt32) (data : Bytes) (tsNanos : ℕ) (iface : UInt32) :
    Outcome PacketMeta := do
  let (ethertype, l3) ← stripLink linktype data
  if ethertype = ETH_P_IP then parseIpv4 l3 tsNanos iface
  else if ethertype = ETH_P_IPV6 then parseIpv6 l3 tsNanos iface
  else reject

/-- Reading an ethertype at an offset. -/
theorem be16_getFrom (data : Bytes) (off : ℕ) :
    (getFrom data off >>= be16) =
      if data.length < off + 2 then reject else value (be16At data off) := by
  by_cases hoff : off ≤ data.length
  · rw [getFrom_of_le hoff, value_bind]
    by_cases h : data.length < off + 2
    · rw [if_pos h, be16_drop_of_lt h]
    · rw [if_neg h, be16_drop (by omega)]
  · rw [getFrom, if_neg hoff, reject_bind, if_pos (by omega)]

/-- One tag is walked if its four bytes are there. -/
theorem stripTags_succ (data : Bytes) (n : ℕ) (et : UInt16) {off : ℕ} (hoff : off + 4 < 2 ^ 64) :
    stripTags data (n + 1) et off =
      if ¬ IsTag et then value (et, off)
      else if data.length < off + 4 then reject
      else stripTags data n (be16At data (off + 2)) (off + 4) := by
  rw [stripTags]
  by_cases htag : IsTag et
  · rw [if_pos htag, if_neg (not_not.2 htag), uadd_of_lt (by omega), value_bind,
      ← Outcome.bind_assoc, be16_getFrom]
    by_cases hlen : data.length < off + 4
    · rw [if_pos hlen, if_pos (by omega), reject_bind]
    · rw [if_neg hlen, if_neg (by omega), value_bind, uadd_of_lt hoff, value_bind]
  · rw [if_neg htag, if_pos htag]

/-- The Ethernet header ends after the first ethertype that is no tag, or after two tags. -/
theorem stripLink_ethernet (data : Bytes) :
    stripLink DLT_EN10MB data =
      if data.length < 14 then reject
      else if ¬ IsTag (be16At data 12) then value (be16At data 12, data.drop 14)
      else if data.length < 18 then reject
      else if ¬ IsTag (be16At data 16) then value (be16At data 16, data.drop 18)
      else if data.length < 22 then reject
      else value (be16At data 20, data.drop 22) := by
  rw [stripLink, if_pos rfl, ← Outcome.bind_assoc, be16_getFrom]
  by_cases h14 : data.length < 14
  · rw [if_pos (by omega), if_pos h14, reject_bind]
  rw [if_neg (by omega), if_neg h14, value_bind, stripTags_succ _ _ _ (by omega)]
  by_cases htag : ¬ IsTag (be16At data 12)
  · rw [if_pos htag, if_pos htag, value_bind]
    simp only [getFrom_of_le (by omega : 14 ≤ data.length), value_bind, pure_eq]
  rw [if_neg htag, if_neg htag]
  by_cases h18 : data.length < 18
  · rw [if_pos (by omega), if_pos h18, reject_bind]
  rw [if_neg (by omega), if_neg h18, stripTags_succ _ _ _ (by omega)]
  by_cases htag2 : ¬ IsTag (be16At data 16)
  · rw [if_pos htag2, if_pos htag2, value_bind]
    simp only [getFrom_of_le (by omega : 18 ≤ data.length), value_bind, pure_eq]
  rw [if_neg htag2, if_neg htag2]
  by_cases h22 : data.length < 22
  · rw [if_pos (by omega), if_pos h22, reject_bind]
  rw [if_neg (by omega), if_neg h22, stripTags, value_bind]
  simp only [getFrom_of_le (by omega : 22 ≤ data.length), value_bind, pure_eq]

/-- Linux cooked framing. -/
theorem stripLink_sll (data : Bytes) :
    stripLink DLT_LINUX_SLL data =
      if data.length < 16 then reject else value (be16At data 14, data.drop 16) := by
  rw [stripLink, if_neg (by decide), if_pos rfl, ← Outcome.bind_assoc, be16_getFrom]
  by_cases h16 : data.length < 16
  · rw [if_pos (by omega), if_pos h16, reject_bind]
  · rw [if_neg (by omega), if_neg h16, value_bind, getFrom_of_le (by omega), value_bind, pure_eq]

/-- The ethertype an IP version nibble stands for. -/
def versionEthertype (b : UInt8) (l3 : Bytes) : Outcome (UInt16 × Bytes) :=
  if b >>> 4 = 4 then value (ETH_P_IP, l3)
  else if b >>> 4 = 6 then value (ETH_P_IPV6, l3)
  else reject

/-- No framing: the version decides. -/
theorem stripLink_raw (data : Bytes) :
    stripLink DLT_RAW data =
      if data.length < 1 then reject else versionEthertype (byteAt data 0) data := by
  rw [stripLink, if_neg (by decide), if_neg (by decide), if_pos rfl]
  by_cases h1 : data.length < 1
  · rw [if_pos h1, getByte, if_neg (by omega), reject_bind]
  · rw [if_neg h1, getByte_of_lt (by omega), value_bind]
    rfl

/-- BSD loopback framing, whose family is not read. -/
theorem stripLink_null (data : Bytes) :
    stripLink DLT_NULL data =
      if data.length < 5 then reject else versionEthertype (byteAt data 4) (data.drop 4) := by
  rw [stripLink, if_neg (by decide), if_neg (by decide), if_neg (by decide), if_pos rfl]
  by_cases h5 : data.length < 5
  · rw [if_pos h5, getByte, if_neg (by omega), reject_bind]
  · rw [if_neg h5, getByte_of_lt (by omega), value_bind]
    simp only [getFrom_of_le (by omega : 4 ≤ data.length), value_bind, pure_eq]
    rfl

/-- Other link types are not decoded. -/
theorem stripLink_other {linktype : UInt32} (hether : linktype ≠ DLT_EN10MB)
    (hsll : linktype ≠ DLT_LINUX_SLL) (hraw : linktype ≠ DLT_RAW) (hnull : linktype ≠ DLT_NULL)
    (data : Bytes) : stripLink linktype data = reject := by
  rw [stripLink, if_neg hether, if_neg hsll, if_neg hraw, if_neg hnull]

/-- A frame that is decoded is an IPv4 or an IPv6 packet behind its link header. -/
theorem parseFrame_of_stripLink {linktype : UInt32} {data l3 : Bytes} {et : UInt16}
    (h : stripLink linktype data = value (et, l3)) (tsNanos : ℕ) (iface : UInt32) :
    parseFrame linktype data tsNanos iface =
      if et = ETH_P_IP then parseIpv4 l3 tsNanos iface
      else if et = ETH_P_IPV6 then parseIpv6 l3 tsNanos iface
      else reject := by
  rw [parseFrame, h, value_bind]
