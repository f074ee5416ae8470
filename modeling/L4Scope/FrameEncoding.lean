/-
# Frame encoding

The reference encoding of TCP and UDP packets in link-layer frames: the link framings the
parser knows, IPv4 with options and IPv6, TCP with options and UDP, a payload and trailing
link padding.  Every field the parser ignores is a parameter.  `Frame.parse_encode` says
that `parseFrame` inverts the encoding.
-/
import L4Scope.IpHeader
import L4Scope.Flow

open Outcome

/-! ## Link framings -/

/-- The two kinds of VLAN tag. -/
inductive TagKind where
  | vlan
  | qinq

/-- The EtherType that announces the tag. -/
def TagKind.tpid : TagKind → UInt16
  | vlan => ETH_P_VLAN
  | qinq => ETH_P_QINQ

/-- A tag between the addresses and the EtherType. -/
structure VlanTag where
  kind : TagKind
  tci : UInt16

/-- The tags of an Ethernet header and the ethertype behind them. -/
def encodeTags (et : UInt16) : List VlanTag → Bytes
  | [] => beBytes 2 et.toNat
  | t :: tags => beBytes 2 t.kind.tpid.toNat ++ (beBytes 2 t.tci.toNat ++ encodeTags et tags)

/-- A link framing, with the bytes of its header before the ethertype. -/
inductive Link where
  | ethernet (macs : Octets 12) (tags : List VlanTag) (le_two : tags.length ≤ 2)
  | sll (cooked : Octets 14)
  | raw
  | null (family : Octets 4)

namespace Link

/-- The link type of the framing. -/
def linktype : Link → UInt32
  | ethernet .. => DLT_EN10MB
  | sll _ => DLT_LINUX_SLL
  | raw => DLT_RAW
  | null _ => DLT_NULL

/-- The link header; raw IP and BSD loopback have no room for the ethertype. -/
def encode (et : UInt16) : Link → Bytes
  | ethernet macs tags _ => macs.1 ++ encodeTags et tags
  | sll cooked => cooked.1 ++ beBytes 2 et.toNat
  | raw => []
  | null family => family.1

end Link

/-- The parser takes it for a tag. -/
theorem TagKind.isTag (k : TagKind) : IsTag k.tpid := by
  cases k
  · exact Or.inl rfl
  · exact Or.inr rfl

/-- An EtherType follows the tags. -/
theorem two_le_length_encodeTags (et : UInt16) (tags : List VlanTag) :
    2 ≤ (encodeTags et tags).length := by
  cases tags <;> simp [encodeTags]

/-- The walk over the tags ends behind the ethertype they lead to. -/
theorem stripTags_encode {et : UInt16} (het : ¬ IsTag et) (rest : Bytes) (tags : List VlanTag) :
    ∀ (a : Bytes) (n : ℕ), tags.length ≤ n → a.length + 4 * tags.length + 2 < 2 ^ 64 →
      stripTags (a ++ (encodeTags et tags ++ rest)) n
          (be16At (a ++ (encodeTags et tags ++ rest)) a.length) (a.length + 2)
        = value (et, (a ++ encodeTags et tags).length) := by
  induction tags with
  | nil =>
      intro a n _ hbound
      have hfirst : be16At (a ++ (encodeTags et [] ++ rest)) a.length = et := by
        rw [be16At_append _ rfl]
        exact be16At_self et rest
      have hend : (a ++ encodeTags et []).length = a.length + 2 := by simp [encodeTags]
      rw [hfirst, hend]
      cases n with
      | zero => rfl
      | succ n =>
          rw [stripTags, if_neg het]
  | cons t tags ih =>
      intro a n hn hbound
      rw [List.length_cons] at hn hbound
      obtain ⟨n, rfl⟩ : ∃ m, n = m + 1 := ⟨n - 1, by omega⟩
      -- the tag moves over to the part already read
      have hmove : a ++ (encodeTags et (t :: tags) ++ rest)
          = (a ++ (beBytes 2 t.kind.tpid.toNat ++ beBytes 2 t.tci.toNat))
            ++ (encodeTags et tags ++ rest) := by
        simp [encodeTags]
      have hfirst : be16At (a ++ (encodeTags et (t :: tags) ++ rest)) a.length = t.kind.tpid := by
        rw [be16At_append _ rfl, encodeTags, List.append_assoc]
        exact be16At_self _ _
      have hread : (a ++ (beBytes 2 t.kind.tpid.toNat ++ beBytes 2 t.tci.toNat)).length
          = a.length + 4 := by
        simp
      have htwo := two_le_length_encodeTags et tags
      have hlen : a.length + 6 ≤ (a ++ (encodeTags et (t :: tags) ++ rest)).length := by
        rw [hmove, List.length_append, hread, List.length_append]
        omega
      have hrest := ih (a ++ (beBytes 2 t.kind.tpid.toNat ++ beBytes 2 t.tci.toNat)) n (by omega)
        (by rw [hread]; omega)
      rw [← hmove, hread] at hrest
      rw [hfirst, stripTags_succ _ _ _ (by omega), if_neg (not_not.2 t.kind.isTag),
        if_neg (by omega), hrest]
      simp [encodeTags]

/-- **The link header is removed**, in front of a packet whose version nibble agrees with
its ethertype. -/
theorem Link.stripLink_encode (link : Link) {et : UInt16} {rest : Bytes} (het : IsIp et)
    (hne : 0 < rest.length) (hver : versionEthertype (byteAt rest 0) rest = value (et, rest)) :
    stripLink link.linktype (link.encode et ++ rest) = value (et, rest) := by
  cases link with
  | ethernet macs tags le_two =>
      have hwalk := stripTags_encode (not_isTag_of_isIp het) rest tags macs.1 2 le_two
        (by rw [macs.2]; omega)
      have htwo := two_le_length_encodeTags et tags
      have hlen : 14 ≤ (macs.1 ++ (encodeTags et tags ++ rest)).length := by
        rw [List.length_append, List.length_append, macs.2]
        omega
      simp only [Link.linktype, Link.encode]
      rw [List.append_assoc, stripLink, if_pos rfl, ← Outcome.bind_assoc, be16_getFrom,
        if_neg (by omega), value_bind]
      rw [macs.2] at hwalk
      rw [hwalk, value_bind, ← List.append_assoc]
      simp only []
      rw [getFrom_of_le (by simp), List.drop_left, value_bind, pure_eq]
  | sll cooked =>
      have hread : be16At (cooked.1 ++ (beBytes 2 et.toNat ++ rest)) 14 = et := by
        rw [be16At_append _ cooked.2]
        exact be16At_self et rest
      have hdrop : (cooked.1 ++ (beBytes 2 et.toNat ++ rest)).drop 16 = rest := by
        rw [← List.append_assoc]
        exact List.drop_left' (by simp [cooked.2])
      simp only [Link.linktype, Link.encode, List.append_assoc]
      rw [stripLink_sll, hread, hdrop, if_neg (by simp [cooked.2]; omega)]
  | raw =>
      simp only [Link.linktype, Link.encode, List.nil_append]
      rw [stripLink_raw, if_neg (by omega), hver]
  | null family =>
      have hread : byteAt (family.1 ++ rest) 4 = byteAt rest 0 := by
        rw [byteAt_append_right (by rw [family.2]), family.2]
      have hdrop : (family.1 ++ rest).drop 4 = rest := List.drop_left' family.2
      simp only [Link.linktype, Link.encode]
      rw [stripLink_null, hread, hdrop, if_neg (by simp [family.2]; omega), hver]

/-! ## IP headers -/

/-- An unfragmented IPv4 packet's header, with its options. -/
structure Ipv4 where
  src : Octets 4
  dst : Octets 4
  ttl : UInt8
  tos : UInt8
  ident : UInt16
  dontFragment : Bool
  checksum : UInt16
  options : Bytes
  words : options.length % 4 = 0
  le_forty : options.length ≤ 40

/-- An IPv6 packet's header: version 6, then the traffic class and the flow label. -/
structure Ipv6 where
  src : Octets 16
  dst : Octets 16
  hopLimit : UInt8
  classHigh : Fin 16
  classAndFlow : Octets 3

/-- An IP header of either version. -/
inductive Ip where
  | v4 (h : Ipv4)
  | v6 (h : Ipv6)

namespace Ipv4

/-- The length of the header with its options. -/
def headerLen (h : Ipv4) : ℕ := 20 + h.options.length

/-- The header in front of `n` bytes of payload. -/
def encode (h : Ipv4) (proto : UInt8) (n : ℕ) : Bytes :=
  [UInt8.ofNat (0x40 + h.headerLen / 4), h.tos] ++ (beBytes 2 (h.headerLen + n)
    ++ (beBytes 2 h.ident.toNat ++ ([if h.dontFragment then 0x40 else 0, 0, h.ttl, proto]
    ++ (beBytes 2 h.checksum.toNat ++ (h.src.1 ++ (h.dst.1 ++ h.options))))))

variable (h : Ipv4) (proto : UInt8) (n : ℕ) (rest : Bytes)

theorem length_encode : (h.encode proto n).length = h.headerLen := by
  simp only [encode, headerLen, List.length_append, List.length_cons, List.length_nil,
    length_beBytes, h.src.2, h.dst.2]
  omega

theorem toNat_byteAt_zero :
    (byteAt (h.encode proto n ++ rest) 0).toNat = 0x40 + h.headerLen / 4 := by
  have hle := h.le_forty
  show (UInt8.ofNat (0x40 + h.headerLen / 4)).toNat = _
  rw [headerLen]
  exact UInt8.toNat_ofNat_of_lt' (show _ < 256 by omega)

/-- The header length that the parser reads. -/
theorem ihlLen_encode : ihlLen (h.encode proto n ++ rest) = h.headerLen := by
  have hwords := h.words
  have hle := h.le_forty
  rw [ihlLen, toNat_and_fifteen, toNat_byteAt_zero, headerLen]
  omega

/-- The parser's reads give the fields back. -/
theorem ipHeader_encode (hfits : h.headerLen + n < 2 ^ 16) :
    ipHeader ETH_P_IP (h.encode proto n ++ rest)
      = ⟨proto, h.ttl, .v4 h.src, .v4 h.dst, h.headerLen, n⟩ := by
  let first := [UInt8.ofNat (0x40 + h.headerLen / 4), h.tos]
  let second := [if h.dontFragment then 0x40 else 0, 0, h.ttl, proto]
  have hparts : h.encode proto n ++ rest = first ++ (beBytes 2 (h.headerLen + n)
      ++ (beBytes 2 h.ident.toNat ++ (second ++ (beBytes 2 h.checksum.toNat
      ++ (h.src.1 ++ (h.dst.1 ++ (h.options ++ rest))))))) := by
    simp only [encode, List.append_assoc, first, second]
  have htotal : beAt 2 (h.encode proto n ++ rest) 2 = h.headerLen + n := by
    rw [hparts, beAt_append 2 _ (show first.length = 2 from rfl)]
    exact beAt_self _ hfits
  have hproto : byteAt (h.encode proto n ++ rest) 9 = proto := by
    rw [hparts]
    rfl
  have httl : byteAt (h.encode proto n ++ rest) 8 = h.ttl := by
    rw [hparts]
    rfl
  have hsrc : octetsAt 4 (h.encode proto n ++ rest) 12 = h.src := by
    rw [hparts]
    exact octetsAt_self h.src _
  have hdst : octetsAt 4 (h.encode proto n ++ rest) 16 = h.dst := by
    have hpast : octetsAt 4 (h.encode proto n ++ rest) 16
        = octetsAt 4 (h.src.1 ++ (h.dst.1 ++ (h.options ++ rest))) 4 := by
      rw [hparts]
      rfl
    rw [hpast, octetsAt_append 4 _ h.src.2]
    exact octetsAt_self h.dst _
  rw [ipHeader_ipv4, ipv4Header, ihlLen_encode, htotal, hproto, httl, hsrc, hdst,
    Nat.add_sub_cancel_left]

end Ipv4

namespace Ipv6

/-- The header in front of `n` bytes of payload. -/
def encode (h : Ipv6) (proto : UInt8) (n : ℕ) : Bytes :=
  [UInt8.ofNat (0x60 + h.classHigh)] ++ (h.classAndFlow.1 ++ (beBytes 2 n
    ++ ([proto, h.hopLimit] ++ (h.src.1 ++ h.dst.1))))

variable (h : Ipv6) (proto : UInt8) (n : ℕ) (rest : Bytes)

theorem length_encode : (h.encode proto n).length = 40 := by
  simp [encode, h.classAndFlow.2, h.src.2, h.dst.2]

theorem toNat_byteAt_zero :
    (byteAt (h.encode proto n ++ rest) 0).toNat = 0x60 + h.classHigh := by
  show (UInt8.ofNat (0x60 + h.classHigh)).toNat = _
  exact UInt8.toNat_ofNat_of_lt' (show _ < 256 by omega)

/-- The parser's reads give the fields back. -/
theorem ipHeader_encode (hfits : n < 2 ^ 16) :
    ipHeader ETH_P_IPV6 (h.encode proto n ++ rest)
      = ⟨proto, h.hopLimit, .v6 h.src, .v6 h.dst, 40, n⟩ := by
  -- the bytes before the payload length, before the addresses, before the second address
  let four := [UInt8.ofNat (0x60 + h.classHigh)] ++ h.classAndFlow.1
  let six := four ++ beBytes 2 n
  let eight := six ++ [proto, h.hopLimit]
  have hfour : h.encode proto n ++ rest
      = four ++ (beBytes 2 n ++ ([proto, h.hopLimit] ++ (h.src.1 ++ (h.dst.1 ++ rest)))) := by
    simp [encode, four]
  have hsix : h.encode proto n ++ rest
      = six ++ (proto :: h.hopLimit :: (h.src.1 ++ (h.dst.1 ++ rest))) := by
    simp [encode, six, four]
  have height : h.encode proto n ++ rest = eight ++ (h.src.1 ++ (h.dst.1 ++ rest)) := by
    simp [encode, eight, six, four]
  have hlast : h.encode proto n ++ rest = (eight ++ h.src.1) ++ (h.dst.1 ++ rest) := by
    simp [encode, eight, six, four]
  have hlen4 : four.length = 4 := by simp [four, h.classAndFlow.2]
  have hlen6 : six.length = 6 := by simp [six, hlen4]
  have hlen8 : eight.length = 8 := by simp [eight, hlen6]
  have hpayload : beAt 2 (h.encode proto n ++ rest) 4 = n := by
    rw [hfour, beAt_append 2 _ hlen4]
    exact beAt_self _ hfits
  have hproto : byteAt (h.encode proto n ++ rest) 6 = proto := by
    rw [hsix, byteAt_append_right (by omega), hlen6]
    rfl
  have hlimit : byteAt (h.encode proto n ++ rest) 7 = h.hopLimit := by
    rw [hsix, byteAt_append_right (by omega), hlen6]
    rfl
  have hsrc : octetsAt 16 (h.encode proto n ++ rest) 8 = h.src := by
    rw [height, octetsAt_append 16 _ hlen8]
    exact octetsAt_self h.src _
  have hdst : octetsAt 16 (h.encode proto n ++ rest) 24 = h.dst := by
    rw [hlast, octetsAt_append 16 _ (by rw [List.length_append, hlen8, h.src.2])]
    exact octetsAt_self h.dst rest
  rw [ipHeader_ipv6, ipv6Header, hpayload, hproto, hlimit, hsrc, hdst]

end Ipv6

namespace Ip

/-- The EtherType of the version. -/
def ethertype : Ip → UInt16
  | v4 _ => ETH_P_IP
  | v6 _ => ETH_P_IPV6

/-- The source address. -/
def src : Ip → IpAddr
  | v4 h => .v4 h.src
  | v6 h => .v6 h.src

/-- The destination address. -/
def dst : Ip → IpAddr
  | v4 h => .v4 h.dst
  | v6 h => .v6 h.dst

/-- The time to live, or hop limit. -/
def ttl : Ip → UInt8
  | v4 h => h.ttl
  | v6 h => h.hopLimit

/-- The length of the header. -/
def headerLen : Ip → ℕ
  | v4 h => h.headerLen
  | v6 _ => 40

/-- The length the header announces for `n` bytes of payload: IPv4 counts the header. -/
def lengthField (n : ℕ) : Ip → ℕ
  | v4 h => h.headerLen + n
  | v6 _ => n

/-- The header in front of `n` bytes of the protocol. -/
def encode (proto : UInt8) (n : ℕ) : Ip → Bytes
  | v4 h => h.encode proto n
  | v6 h => h.encode proto n

variable (ip : Ip) (proto : UInt8) {n : ℕ} (rest : Bytes)

/-- The EtherType is one of IP. -/
theorem isIp : IsIp ip.ethertype := by
  cases ip with
  | v4 h => exact Or.inl rfl
  | v6 h => exact Or.inr rfl

theorem length_encode : (ip.encode proto n).length = ip.headerLen := by
  cases ip with
  | v4 h => exact h.length_encode proto n
  | v6 h => exact h.length_encode proto n

/-- The fields that the parser reads are those of the header. -/
theorem ipHeader_encode (hfits : ip.lengthField n < 2 ^ 16) :
    ipHeader ip.ethertype (ip.encode proto n ++ rest)
      = ⟨proto, ip.ttl, ip.src, ip.dst, ip.headerLen, n⟩ := by
  cases ip with
  | v4 h => exact h.ipHeader_encode proto n rest hfits
  | v6 h => exact h.ipHeader_encode proto n rest hfits

/-- The version nibble agrees with the ethertype. -/
theorem versionEthertype_encode (l3 : Bytes) :
    versionEthertype (byteAt (ip.encode proto n ++ rest) 0) l3 = value (ip.ethertype, l3) := by
  have hnibble (b : UInt8) (v : UInt8) : b >>> 4 = v ↔ b.toNat / 16 = v.toNat := by
    rw [← UInt8.toNat_inj, toNat_shiftRight_four]
  cases ip with
  | v4 h =>
      have hle := h.le_forty
      have hzero := h.toNat_byteAt_zero proto n rest
      rw [Ipv4.headerLen] at hzero
      rw [versionEthertype, if_pos]
      · rfl
      · rw [hnibble]
        show (byteAt (h.encode proto n ++ rest) 0).toNat / 16 = 4
        omega
  | v6 h =>
      have hzero := h.toNat_byteAt_zero proto n rest
      have hsix : (byteAt (h.encode proto n ++ rest) 0).toNat / 16 = 6 := by omega
      rw [versionEthertype, if_neg, if_pos]
      · rfl
      · rw [hnibble]
        exact hsix
      · rw [hnibble]
        show ¬ (byteAt (h.encode proto n ++ rest) 0).toNat / 16 = 4
        omega

/-- The header is long enough. -/
theorem minHeaderLen_le : minHeaderLen ip.ethertype ≤ ip.headerLen := by
  cases ip with
  | v4 h => exact Nat.le_add_right 20 _
  | v6 h => exact le_refl 40

/-- The parser accepts the header. -/
theorem headerOk_encode (hfits : ip.lengthField n < 2 ^ 16) :
    HeaderOk ip.ethertype (ip.encode proto n ++ rest) := by
  have hmin := ip.minHeaderLen_le
  have hlen : ip.headerLen ≤ (ip.encode proto n ++ rest).length := by
    rw [List.length_append, length_encode]
    omega
  rw [HeaderOk, ipHeader_encode ip proto rest hfits]
  exact ⟨ip.isIp, hmin.trans hlen, hmin, hlen⟩

/-- What is behind the header. -/
theorem transport_encode (hfits : ip.lengthField n < 2 ^ 16) :
    l4Of ip.ethertype (ip.encode proto n ++ rest) = rest := by
  rw [l4Of, ipHeader_encode ip proto rest hfits]
  exact List.drop_left' (ip.length_encode proto)

end Ip

/-! ## Transport headers -/

/-- A TCP header with its options.  The low six bits of `flagByte` are the flags. -/
structure Tcp where
  sport : UInt16
  dport : UInt16
  seq : UInt32
  ack : UInt32
  reserved : Fin 16
  flagByte : UInt8
  window : UInt16
  checksum : UInt16
  urgent : UInt16
  options : Bytes
  words : options.length % 4 = 0
  le_forty : options.length ≤ 40

/-- A UDP header. -/
structure Udp where
  sport : UInt16
  dport : UInt16
  checksum : UInt16

namespace Tcp

/-- The length of the header with its options. -/
def headerLen (h : Tcp) : ℕ := 20 + h.options.length

/-- The bytes of the header. -/
def encode (h : Tcp) : Bytes :=
  beBytes 2 h.sport.toNat ++ (beBytes 2 h.dport.toNat ++ (beBytes 4 h.seq.toNat
    ++ (beBytes 4 h.ack.toNat ++ ([UInt8.ofNat (h.headerLen / 4 * 16 + h.reserved), h.flagByte]
    ++ (beBytes 2 h.window.toNat ++ (beBytes 2 h.checksum.toNat ++ (beBytes 2 h.urgent.toNat
    ++ h.options)))))))

variable (h : Tcp) (rest : Bytes)

theorem length_encode : h.encode.length = h.headerLen := by
  simp only [encode, headerLen, List.length_append, List.length_cons, List.length_nil,
    length_beBytes]
  omega

/-- The data offset that the parser reads. -/
theorem dataOff_encode : dataOff (h.encode ++ rest) = h.headerLen := by
  have hwords := h.words
  have hle := h.le_forty
  have hbyte : (byteAt (h.encode ++ rest) 12).toNat = h.headerLen / 4 * 16 + h.reserved := by
    show (UInt8.ofNat (h.headerLen / 4 * 16 + h.reserved)).toNat = _
    rw [headerLen]
    exact UInt8.toNat_ofNat_of_lt' (show _ < 256 by omega)
  rw [dataOff, toNat_shiftRight_four, hbyte, headerLen]
  omega

/-- The parser's reads give the fields back. -/
theorem tcpRecord_encode (src dst : IpAddr) (ttl : UInt8) (n tsNanos : ℕ) (iface : UInt32) :
    tcpRecord src dst ttl (h.encode ++ rest) n tsNanos iface
      = build src h.sport dst h.dport .tcp ⟨h.flagByte &&& 0x3f⟩ h.seq h.ack h.window.toUInt32
        (.ofNat n) ttl tsNanos iface := by
  let tail := [UInt8.ofNat (h.headerLen / 4 * 16 + h.reserved), h.flagByte]
  have hparts : h.encode ++ rest = beBytes 2 h.sport.toNat ++ (beBytes 2 h.dport.toNat
      ++ (beBytes 4 h.seq.toNat ++ (beBytes 4 h.ack.toNat ++ (tail ++ (beBytes 2 h.window.toNat
      ++ (beBytes 2 h.checksum.toNat ++ (beBytes 2 h.urgent.toNat ++ (h.options ++ rest)))))))) := by
    simp only [encode, List.append_assoc, tail]
  have hsport : be16At (h.encode ++ rest) 0 = h.sport := by
    rw [hparts]
    exact be16At_self _ _
  have hdport : be16At (h.encode ++ rest) 2 = h.dport := by
    rw [hparts, be16At_append _ (length_beBytes 2 _)]
    exact be16At_self _ _
  have hseq : be32At (h.encode ++ rest) 4 = h.seq := by
    rw [hparts, ← List.append_assoc, be32At_append _ (by simp)]
    exact be32At_self _ _
  have hack : be32At (h.encode ++ rest) 8 = h.ack := by
    rw [hparts, ← List.append_assoc, ← List.append_assoc, be32At_append _ (by simp)]
    exact be32At_self _ _
  have hflags : byteAt (h.encode ++ rest) 13 = h.flagByte := by
    rw [hparts]
    rfl
  have hwindow : be16At (h.encode ++ rest) 14 = h.window := by
    rw [hparts, ← List.append_assoc, ← List.append_assoc, ← List.append_assoc,
      ← List.append_assoc, be16At_append _ (by simp [tail])]
    exact be16At_self _ _
  rw [tcpRecord, hsport, hdport, hseq, hack, hflags, hwindow]

end Tcp

namespace Udp

/-- The header in front of `n` bytes of payload. -/
def encode (h : Udp) (n : ℕ) : Bytes :=
  beBytes 2 h.sport.toNat ++ (beBytes 2 h.dport.toNat ++ (beBytes 2 (8 + n)
    ++ beBytes 2 h.checksum.toNat))

variable (h : Udp) {n : ℕ} (rest : Bytes)

theorem length_encode : (h.encode n).length = 8 := by
  simp [encode]

/-- The parser's reads give the fields back. -/
theorem udpRecord_encode (hfits : 8 + n < 2 ^ 16) (src dst : IpAddr) (ttl : UInt8) (tsNanos : ℕ)
    (iface : UInt32) :
    udpRecord src dst ttl (h.encode n ++ rest) tsNanos iface
      = build src h.sport dst h.dport .udp ⟨0⟩ 0 0 0 (.ofNat n) ttl tsNanos iface := by
  have hparts : h.encode n ++ rest = beBytes 2 h.sport.toNat ++ (beBytes 2 h.dport.toNat
      ++ (beBytes 2 (8 + n) ++ (beBytes 2 h.checksum.toNat ++ rest))) := by
    simp only [encode, List.append_assoc]
  have hsport : be16At (h.encode n ++ rest) 0 = h.sport := by
    rw [hparts]
    exact be16At_self _ _
  have hdport : be16At (h.encode n ++ rest) 2 = h.dport := by
    rw [hparts, be16At_append _ (length_beBytes 2 _)]
    exact be16At_self _ _
  have hlen : beAt 2 (h.encode n ++ rest) 4 = 8 + n := by
    rw [hparts, ← List.append_assoc, beAt_append 2 _ (by simp)]
    exact beAt_self _ hfits
  rw [udpRecord, hsport, hdport, hlen, Nat.add_sub_cancel_left]

end Udp

/-- A transport header. -/
inductive Transport where
  | tcp (h : Tcp)
  | udp (h : Udp)

namespace Transport

/-- The protocol of the header. -/
def proto : Transport → Protocol
  | tcp _ => .tcp
  | udp _ => .udp

/-- Its number in the IP header. -/
def protoNum : Transport → UInt8
  | tcp _ => IPPROTO_TCP
  | udp _ => IPPROTO_UDP

/-- The source port. -/
def sport : Transport → UInt16
  | tcp h => h.sport
  | udp h => h.sport

/-- The destination port. -/
def dport : Transport → UInt16
  | tcp h => h.dport
  | udp h => h.dport

/-- The low six bits of the flag byte; none for UDP. -/
def flags : Transport → TcpFlags
  | tcp h => ⟨h.flagByte &&& 0x3f⟩
  | udp _ => ⟨0⟩

/-- The sequence number, 0 for UDP. -/
def seq : Transport → UInt32
  | tcp h => h.seq
  | udp _ => 0

/-- The acknowledgement number, 0 for UDP. -/
def ack : Transport → UInt32
  | tcp h => h.ack
  | udp _ => 0

/-- The receive window, 0 for UDP. -/
def window : Transport → UInt32
  | tcp h => h.window.toUInt32
  | udp _ => 0

/-- The length of the header. -/
def headerLen : Transport → ℕ
  | tcp h => h.headerLen
  | udp _ => 8

/-- The header in front of a payload of `n` bytes. -/
def encode (n : ℕ) : Transport → Bytes
  | tcp h => h.encode
  | udp h => h.encode n

end Transport

/-! ## Frames -/

/-- A packet in its link-layer frame; its IP length fits in 16 bits. -/
structure Frame where
  link : Link
  ip : Ip
  transport : Transport
  payload : Bytes
  padding : Bytes
  fits : ip.lengthField (transport.headerLen + payload.length) < 2 ^ 16

namespace Frame

variable (f : Frame)

/-- The sender. -/
def src : Endpoint := ⟨f.ip.src, f.transport.sport⟩

/-- The receiver. -/
def dst : Endpoint := ⟨f.ip.dst, f.transport.dport⟩

/-- The IP packet and the padding behind it. -/
def packet : Bytes :=
  f.ip.encode f.transport.protoNum (f.transport.headerLen + f.payload.length)
    ++ (f.transport.encode f.payload.length ++ (f.payload ++ f.padding))

/-- The bytes of the frame. -/
def encode : Bytes := f.link.encode f.ip.ethertype ++ f.packet

/-- The record the frame stands for. -/
def record (tsNanos : ℕ) (iface : UInt32) : PacketMeta :=
  build f.ip.src f.transport.sport f.ip.dst f.transport.dport f.transport.proto f.transport.flags
    f.transport.seq f.transport.ack f.transport.window (.ofNat f.payload.length) f.ip.ttl tsNanos
    iface

/-- The framing comes off. -/
theorem stripLink_encode :
    stripLink f.link.linktype f.encode = value (f.ip.ethertype, f.packet) := by
  have hmin := f.ip.minHeaderLen_le
  have hlen : 0 < f.packet.length := by
    have hpos : 0 < minHeaderLen f.ip.ethertype := by
      rw [minHeaderLen]
      split <;> omega
    rw [packet, List.length_append, Ip.length_encode]
    omega
  exact f.link.stripLink_encode f.ip.isIp hlen
    (f.ip.versionEthertype_encode f.transport.protoNum _ f.packet)

/-- The IP header of the packet. -/
theorem ipHeader_packet : ipHeader f.ip.ethertype f.packet = ⟨f.transport.protoNum, f.ip.ttl,
    f.ip.src, f.ip.dst, f.ip.headerLen, f.transport.headerLen + f.payload.length⟩ :=
  f.ip.ipHeader_encode f.transport.protoNum _ f.fits

/-- It is accepted. -/
theorem headerOk_packet : HeaderOk f.ip.ethertype f.packet :=
  f.ip.headerOk_encode f.transport.protoNum _ f.fits

/-- The transport header and what follows it. -/
theorem l4Of_packet : l4Of f.ip.ethertype f.packet
    = f.transport.encode f.payload.length ++ (f.payload ++ f.padding) :=
  f.ip.transport_encode f.transport.protoNum _ f.fits

/-- Whichever the IP version, its length field bounds the transport's. -/
theorem fits_transport : f.transport.headerLen + f.payload.length < 2 ^ 16 := by
  have h := f.fits
  cases hip : f.ip with
  | v4 h4 =>
      rw [hip] at h
      exact Nat.lt_of_le_of_lt (Nat.le_add_left _ _) h
  | v6 h6 =>
      rw [hip] at h
      exact h

/-- A TCP frame is decoded. -/
theorem parseFrame_encode_tcp {h : Tcp} (ht : f.transport = .tcp h) (tsNanos : ℕ)
    (iface : UInt32) :
    parseFrame f.link.linktype f.encode tsNanos iface = value (f.record tsNanos iface) := by
  have hheader := f.ipHeader_packet
  have hbytes := f.l4Of_packet
  rw [ht] at hheader hbytes
  simp only [Transport.encode] at hbytes
  have hproto : (ipHeader f.ip.ethertype f.packet).proto = IPPROTO_TCP := by rw [hheader]; rfl
  have hcaptured : (h.encode ++ (f.payload ++ f.padding)).length
      = h.headerLen + f.payload.length + f.padding.length := by
    rw [List.length_append, List.length_append, h.length_encode, Nat.add_assoc]
  have hchecks : 20 ≤ (l4Of f.ip.ethertype f.packet).length ∧
      20 ≤ dataOff (l4Of f.ip.ethertype f.packet) := by
    rw [hbytes, hcaptured, h.dataOff_encode, Tcp.headerLen]
    omega
  -- the announced payload ends before the padding
  have hclamp : min (h.headerLen + f.payload.length)
      (h.headerLen + f.payload.length + f.padding.length) - h.headerLen = f.payload.length := by
    omega
  rw [parseFrame_tcp f.stripLink_encode _ _ hproto, if_pos ⟨f.headerOk_packet, hchecks⟩, hheader,
    hbytes, hcaptured, h.dataOff_encode, h.tcpRecord_encode, record, ht]
  simp only [Transport.headerLen]
  rw [hclamp]
  rfl

/-- A UDP frame is decoded. -/
theorem parseFrame_encode_udp {h : Udp} (ht : f.transport = .udp h) (tsNanos : ℕ)
    (iface : UInt32) :
    parseFrame f.link.linktype f.encode tsNanos iface = value (f.record tsNanos iface) := by
  have hheader := f.ipHeader_packet
  have hbytes := f.l4Of_packet
  have hfits := f.fits_transport
  rw [ht] at hheader hbytes hfits
  simp only [Transport.encode] at hbytes
  have hproto : (ipHeader f.ip.ethertype f.packet).proto = IPPROTO_UDP := by rw [hheader]; rfl
  have hlen : 8 ≤ (l4Of f.ip.ethertype f.packet).length := by
    rw [hbytes, List.length_append, h.length_encode]
    omega
  rw [parseFrame_udp f.stripLink_encode _ _ hproto, if_pos ⟨f.headerOk_packet, hlen⟩, hheader,
    hbytes, h.udpRecord_encode _ hfits, record, ht]
  rfl

/-- The parser gives the record back. -/
theorem parseFrame_encode (tsNanos : ℕ) (iface : UInt32) :
    parseFrame f.link.linktype f.encode tsNanos iface = value (f.record tsNanos iface) := by
  cases ht : f.transport with
  | tcp h => exact f.parseFrame_encode_tcp ht tsNanos iface
  | udp h => exact f.parseFrame_encode_udp ht tsNanos iface

end Frame

/-- The endpoints of a record are those it was built from. -/
theorem endpoints_build (srcIp dstIp : IpAddr) (sport dport : UInt16) (proto : Protocol)
    (flags : TcpFlags) (seq ack window payloadLen : UInt32) (ttl : UInt8) (tsNanos : ℕ)
    (iface : UInt32) :
    endpoints (build srcIp sport dstIp dport proto flags seq ack window payloadLen ttl tsNanos
      iface) = (⟨srcIp, sport⟩, ⟨dstIp, dport⟩) := by
  rw [build, FlowKey.canonical]
  by_cases h : (⟨srcIp, sport⟩ : Endpoint) ≤ ⟨dstIp, dport⟩
  · rw [if_pos h]
    rfl
  · rw [if_neg h]
    rfl

/-- **Parsing inverts frame encoding.**  The record of an encoded packet has the fields it
was encoded from, in whichever link framing, with whichever options and padding: the
canonical key of its two endpoints, the length of its payload, no flags and numbers for
UDP, and a direction from which the source and the destination are recovered. -/
theorem Frame.parse_encode (f : Frame) (tsNanos : ℕ) (iface : UInt32) :
    ∃ m, parseFrame f.link.linktype f.encode tsNanos iface = value m ∧
      (m.key, m.dir) = FlowKey.canonical f.src f.dst f.transport.proto ∧
      m.proto = f.transport.proto ∧ m.flags = f.transport.flags ∧ m.seq = f.transport.seq ∧
      m.ack = f.transport.ack ∧ m.window = f.transport.window ∧
      m.payloadLen.toNat = f.payload.length ∧ m.ttl = f.ip.ttl ∧ m.tsNanos = tsNanos ∧
      m.iface = iface ∧ endpoints m = (f.src, f.dst) := by
  refine ⟨f.record tsNanos iface, f.parseFrame_encode tsNanos iface, rfl, rfl, rfl, rfl, rfl, rfl,
    ?_, rfl, rfl, rfl, ?_⟩
  · have hfits := f.fits
    show (UInt32.ofNat f.payload.length).toNat = f.payload.length
    apply UInt32.toNat_ofNat_of_lt'
    cases hip : f.ip with
    | v4 h4 =>
        rw [hip] at hfits
        simp only [Ip.lengthField] at hfits
        show f.payload.length < 2 ^ 32
        omega
    | v6 h6 =>
        rw [hip] at hfits
        simp only [Ip.lengthField] at hfits
        show f.payload.length < 2 ^ 32
        omega
  · exact endpoints_build _ _ _ _ _ _ _ _ _ _ _ _ _
