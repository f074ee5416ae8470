/-
# IP headers in front of a transport header

IPv4 packets, and IPv6 packets without extension headers, read in one way: the IP header
says which transport follows, where it starts and how long its payload is.  The
equations `parseFrame_tcp`, `parseFrame_udp` and `parseFrame_other` say what
`parseFrame` makes of such a packet.
-/
import L4Scope.Parse

open Outcome

/-- What the IP header in front of a transport header says. -/
structure IpHeader where
  proto : UInt8
  ttl : UInt8
  src : IpAddr
  dst : IpAddr
  /-- The header's own length, with its options. -/
  len : ℕ
  /-- The payload length it announces. -/
  payload : ℕ

/-- The fields of an IPv4 header. -/
def ipv4Header (d : Bytes) : IpHeader where
  proto := byteAt d 9
  ttl := byteAt d 8
  src := .v4 (octetsAt 4 d 12)
  dst := .v4 (octetsAt 4 d 16)
  len := ihlLen d
  payload := beAt 2 d 2 - ihlLen d

/-- The fields of an IPv6 header. -/
def ipv6Header (d : Bytes) : IpHeader where
  proto := byteAt d 6
  ttl := byteAt d 7
  src := .v6 (octetsAt 16 d 8)
  dst := .v6 (octetsAt 16 d 24)
  len := 40
  payload := beAt 2 d 4

/-- The header of a packet with the given ethertype. -/
def ipHeader (et : UInt16) (d : Bytes) : IpHeader :=
  if et = ETH_P_IP then ipv4Header d else ipv6Header d

/-- The length of an IP header without options. -/
def minHeaderLen (et : UInt16) : ℕ := if et = ETH_P_IP then 20 else 40

/-- The packet is IPv4 or IPv6. -/
def IsIp (et : UInt16) : Prop := et = ETH_P_IP ∨ et = ETH_P_IPV6

instance (et : UInt16) : Decidable (IsIp et) := by unfold IsIp; infer_instance

/-- The IP header is all there, and no shorter than a header can be. -/
def HeaderOk (et : UInt16) (d : Bytes) : Prop :=
  IsIp et ∧ minHeaderLen et ≤ d.length ∧ minHeaderLen et ≤ (ipHeader et d).len ∧
    (ipHeader et d).len ≤ d.length

instance (et : UInt16) (d : Bytes) : Decidable (HeaderOk et d) := by
  unfold HeaderOk; infer_instance

/-- The length field of an IP header that is all there does not exceed the bytes present. -/
def LengthPresent (et : UInt16) (d : Bytes) : Prop :=
  (et = ETH_P_IP → 20 ≤ d.length → beAt 2 d 2 ≤ d.length) ∧
    (et = ETH_P_IPV6 → 40 ≤ d.length → 40 + beAt 2 d 4 ≤ d.length)

instance (et : UInt16) (d : Bytes) : Decidable (LengthPresent et d) := by
  unfold LengthPresent; infer_instance

/-- The bytes after the IP header. -/
def l4Of (et : UInt16) (d : Bytes) : Bytes := d.drop (ipHeader et d).len

/-- What is behind the header. -/
theorem length_l4Of (et : UInt16) (d : Bytes) :
    (l4Of et d).length = d.length - (ipHeader et d).len := List.length_drop

/-- IP is no tag. -/
theorem not_isTag_of_isIp {et : UInt16} (h : IsIp et) : ¬ IsTag et := by
  rcases h with rfl | rfl <;> decide

/-- The header of an IPv4 packet. -/
theorem ipHeader_ipv4 (d : Bytes) : ipHeader ETH_P_IP d = ipv4Header d := if_pos rfl

/-- The header of an IPv6 packet. -/
theorem ipHeader_ipv6 (d : Bytes) : ipHeader ETH_P_IPV6 d = ipv6Header d := if_neg (by decide)

/-- The parser's own checks of an IPv4 header. -/
theorem headerOk_ipv4 (d : Bytes) :
    HeaderOk ETH_P_IP d ↔ ¬ (d.length < 20 ∨ ihlLen d < 20 ∨ d.length < ihlLen d) := by
  rw [HeaderOk, ipHeader_ipv4, minHeaderLen, if_pos rfl]
  simp only [not_or, Nat.not_lt]
  exact and_iff_right (Or.inl rfl)

/-- An IPv6 header has its length. -/
theorem headerOk_ipv6 (d : Bytes) : HeaderOk ETH_P_IPV6 d ↔ ¬ d.length < 40 := by
  rw [HeaderOk, ipHeader_ipv6, minHeaderLen, if_neg (by decide), Nat.not_lt]
  constructor
  · rintro ⟨-, hmin, -⟩
    exact hmin
  · intro hmin
    exact ⟨Or.inr rfl, hmin, le_refl 40, hmin⟩

/-- The announced payload is then captured. -/
theorem LengthPresent.payload_le {et : UInt16} {d : Bytes} (h : LengthPresent et d)
    (hok : HeaderOk et d) : (ipHeader et d).payload ≤ (l4Of et d).length := by
  rw [length_l4Of]
  obtain ⟨hip, hmin, hlen, hle⟩ := hok
  rcases hip with rfl | rfl
  · have htotal := h.1 rfl hmin
    rw [ipHeader_ipv4] at *
    show beAt 2 d 2 - ihlLen d ≤ d.length - ihlLen d
    omega
  · have htotal := h.2 rfl hmin
    rw [ipHeader_ipv6] at *
    show beAt 2 d 4 ≤ d.length - 40
    omega

/-- The announced payload fits in 16 bits. -/
theorem ipHeader_payload_lt (et : UInt16) (d : Bytes) : (ipHeader et d).payload < 2 ^ 16 := by
  rw [ipHeader]
  split_ifs
  · have h := beAt_lt 2 d 2
    show beAt 2 d 2 - ihlLen d < 2 ^ 16
    omega
  · exact beAt_lt 2 d 4

/-- Bytes cut off behind the IP header do not change it. -/
theorem ipHeader_take {et : UInt16} {d : Bytes} {n : ℕ} (h : minHeaderLen et ≤ n) :
    ipHeader et (d.take n) = ipHeader et d := by
  rw [minHeaderLen] at h
  unfold ipHeader
  split_ifs at h ⊢
  · simp only [ipv4Header, ihlLen, byteAt_take (show 9 < n by omega),
      byteAt_take (show 8 < n by omega), byteAt_take (show 0 < n by omega),
      octetsAt_take d (show 12 + 4 ≤ n by omega), octetsAt_take d (show 16 + 4 ≤ n by omega),
      beAt_take d (show 2 + 2 ≤ n by omega)]
  · simp only [ipv6Header, byteAt_take (show 6 < n by omega), byteAt_take (show 7 < n by omega),
      octetsAt_take d (show 8 + 16 ≤ n by omega), octetsAt_take d (show 24 + 16 ≤ n by omega),
      beAt_take d (show 4 + 2 ≤ n by omega)]

/-! ## What the parser makes of such a packet -/

section Parse

variable {linktype : UInt32} {data l3 : Bytes} {et : UInt16}
  (hlink : stripLink linktype data = value (et, l3)) (tsNanos : ℕ) (iface : UInt32)

include hlink

/-- A packet that carries TCP or UDP behind its IP header goes to `finish`. -/
theorem parseFrame_transport
    (hproto : (ipHeader et l3).proto = IPPROTO_TCP ∨ (ipHeader et l3).proto = IPPROTO_UDP) :
    parseFrame linktype data tsNanos iface =
      if HeaderOk et l3 then
        finish (ipHeader et l3).proto (ipHeader et l3).src (ipHeader et l3).dst
          (ipHeader et l3).ttl (l4Of et l3)
          (min (ipHeader et l3).payload (l4Of et l3).length) tsNanos iface
      else reject := by
  rw [parseFrame_of_stripLink hlink, length_l4Of, l4Of]
  by_cases h4 : et = ETH_P_IP
  · subst h4
    rw [if_pos rfl, parseIpv4_eq, ipHeader_ipv4]
    by_cases hbad : l3.length < 20 ∨ ihlLen l3 < 20 ∨ l3.length < ihlLen l3
    · rw [if_pos hbad, if_neg (mt (headerOk_ipv4 l3).1 (not_not.2 hbad))]
    · rw [if_neg hbad, if_pos ((headerOk_ipv4 l3).2 hbad)]
      rfl
  rw [if_neg h4]
  by_cases h6 : et = ETH_P_IPV6
  · subst h6
    rw [ipHeader_ipv6] at hproto
    rw [if_pos rfl, parseIpv6_transport hproto, ipHeader_ipv6]
    by_cases hshort : l3.length < 40
    · rw [if_pos hshort, if_neg (mt (headerOk_ipv6 l3).1 (not_not.2 hshort))]
    · rw [if_neg hshort, if_pos ((headerOk_ipv6 l3).2 hshort)]
      rfl
  · rw [if_neg h6, if_neg]
    rintro ⟨hip, -⟩
    rcases hip with h | h
    · exact h4 h
    · exact h6 h

/-- **What the parser makes of a TCP packet.** -/
theorem parseFrame_tcp (hproto : (ipHeader et l3).proto = IPPROTO_TCP) :
    parseFrame linktype data tsNanos iface =
      if HeaderOk et l3 ∧ 20 ≤ (l4Of et l3).length ∧ 20 ≤ dataOff (l4Of et l3) then
        value (tcpRecord (ipHeader et l3).src (ipHeader et l3).dst (ipHeader et l3).ttl
          (l4Of et l3)
          (min (ipHeader et l3).payload (l4Of et l3).length - dataOff (l4Of et l3))
          tsNanos iface)
      else reject := by
  rw [parseFrame_transport hlink _ _ (Or.inl hproto), hproto, finish_tcp]
  by_cases hok : HeaderOk et l3
  · rw [if_pos hok]
    by_cases hbad : (l4Of et l3).length < 20 ∨ dataOff (l4Of et l3) < 20
    · rw [if_pos hbad, if_neg (by omega)]
    · rw [if_neg hbad, if_pos ⟨hok, by omega, by omega⟩]
  · rw [if_neg hok, if_neg (by tauto)]

/-- **What the parser makes of a UDP packet.** -/
theorem parseFrame_udp (hproto : (ipHeader et l3).proto = IPPROTO_UDP) :
    parseFrame linktype data tsNanos iface =
      if HeaderOk et l3 ∧ 8 ≤ (l4Of et l3).length then
        value (udpRecord (ipHeader et l3).src (ipHeader et l3).dst (ipHeader et l3).ttl
          (l4Of et l3) tsNanos iface)
      else reject := by
  rw [parseFrame_transport hlink _ _ (Or.inr hproto), hproto, finish_udp]
  by_cases hok : HeaderOk et l3
  · rw [if_pos hok]
    by_cases hbad : (l4Of et l3).length < 8
    · rw [if_pos hbad, if_neg (by omega)]
    · rw [if_neg hbad, if_pos ⟨hok, by omega⟩]
  · rw [if_neg hok, if_neg (by tauto)]

/-- A packet of another protocol is not decoded, unless IPv6 extension headers follow. -/
theorem parseFrame_other (htcp : (ipHeader et l3).proto ≠ IPPROTO_TCP)
    (hudp : (ipHeader et l3).proto ≠ IPPROTO_UDP)
    (hext : et = ETH_P_IPV6 → ¬ IsExtension (ipHeader et l3).proto) :
    parseFrame linktype data tsNanos iface = reject := by
  rw [parseFrame_of_stripLink hlink]
  by_cases h4 : et = ETH_P_IP
  · subst h4
    rw [ipHeader_ipv4] at htcp hudp
    rw [if_pos rfl, parseIpv4_eq]
    split
    · rfl
    · exact finish_other _ _ _ _ _ _ _ htcp hudp
  rw [if_neg h4]
  by_cases h6 : et = ETH_P_IPV6
  · subst h6
    rw [ipHeader_ipv6] at htcp hudp hext
    rw [if_pos rfl]
    exact parseIpv6_other htcp hudp (hext rfl) tsNanos iface
  · rw [if_neg h6]

end Parse

namespace Sample

/-- Ethernet, IPv4 and TCP headers from 10.0.0.1:5000 to 10.0.0.2:80, with the given data
offset byte, then `n` bytes. -/
def frame (doff : UInt8) (seq n : ℕ) : Bytes :=
  [0, 0, 0, 0, 0, 2, 0, 0, 0, 0, 0, 1, 0x08, 0x00] ++
  ([0x45, 0] ++ beBytes 2 (40 + n) ++ [0, 0, 0x40, 0, 64, 6, 0, 0, 10, 0, 0, 1, 10, 0, 0, 2]) ++
  ([0x13, 0x88, 0, 80] ++ beBytes 4 seq ++ [0, 0, 0, 1, doff, 0x10, 0xfa, 0xf0, 0, 0, 0, 0]) ++
  List.replicate n 0x61

end Sample
