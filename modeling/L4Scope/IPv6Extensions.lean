/-
# IPv6 extension headers

The reference encoding of IPv6 packets whose transport header stands behind a chain of
extension headers (`ExtPacket`), and what the parser's walk makes of them.  Each header
has its own length, in the unit of its own type; the walk takes the unit of the header that
comes next.  `walkExt_encode` says that it steps over every header for which the two agree,
and `ExtPacket.found_iff` that the parser is right on all packets with a given sequence of
types exactly if there is no authentication header in it.
-/
import L4Scope.FrameEncoding

open Outcome

/-! ## One step of the walk -/

/-- Headers that hold their length in their second byte. -/
def HoldsLength (next : UInt8) : Prop := next = 0 ∨ next = 43 ∨ next = 60 ∨ next = 51

instance (next : UInt8) : Decidable (HoldsLength next) := by unfold HoldsLength; infer_instance

/-- The bytes the walk skips for a length byte, in front of a header numbered `next`. -/
def skippedLen (next len : UInt8) : ℕ :=
  if next = 51 then (len.toNat + 2) * 4 else (len.toNat + 1) * 8

/-- A header is not longer than 2048 bytes. -/
theorem skippedLen_le (next len : UInt8) : skippedLen next len ≤ 2048 := by
  have hlen := len.toNat_lt
  unfold skippedLen
  split <;> omega

/-- A header with a length byte. -/
theorem extHeader_length {next : UInt8} (hnext : HoldsLength next) (d : Bytes) {off : ℕ}
    (hoff : off < 2 ^ 32) :
    extHeader d next off =
      if d.length < off + 2 then reject
      else value (byteAt d off, off + skippedLen (byteAt d off) (byteAt d (off + 1))) := by
  have hor : next = 0 ∨ next = 43 ∨ next = 60 ∨ next = 51 := hnext
  rw [extHeader, if_pos hor, uadd_of_lt (by omega), value_bind, getRange]
  by_cases hlen : d.length < off + 2
  · rw [if_neg (by omega), if_pos hlen, reject_bind]
  have hhdr : ((d.take (off + 2)).drop off).length = 2 := by
    rw [List.length_drop, List.length_take]
    omega
  have hbyte (i : ℕ) (hi : i < 2) :
      index ((d.take (off + 2)).drop off) i = value (byteAt d (off + i)) := by
    rw [index_of_lt (by omega), byteAt_drop, byteAt_take (by omega)]
  have hlt := (byteAt d (off + 1)).toNat_lt
  rw [if_pos (by omega), if_neg hlen, value_bind, hbyte 0 (by omega), value_bind,
    hbyte 1 (by omega)]
  simp only [value_bind, Nat.add_zero]
  by_cases hah : byteAt d off = 51
  · rw [if_pos hah, uadd_of_lt (by omega), value_bind, umul_of_lt (by omega), value_bind,
      uadd_of_lt (by omega), value_bind, pure_eq, skippedLen, if_pos hah]
  · rw [if_neg hah, uadd_of_lt (by omega), value_bind, umul_of_lt (by omega), value_bind,
      uadd_of_lt (by omega), value_bind, pure_eq, skippedLen, if_neg hah]

/-- A fragment header. -/
theorem extHeader_fragment (d : Bytes) {off : ℕ} (hoff : off < 2 ^ 32) :
    extHeader d 44 off =
      if d.length ≤ off then reject else value (byteAt d off, off + 8) := by
  rw [extHeader, if_neg (by decide), if_pos rfl, getByte]
  by_cases hlen : d.length ≤ off
  · rw [if_neg (by omega), if_pos hlen, reject_bind]
  · rw [if_pos (by omega), if_neg hlen, value_bind, uadd_of_lt (by omega), value_bind, pure_eq]

/-- Nothing else is an extension header. -/
theorem extHeader_other {next : UInt8} (hnext : ¬ IsExtension next) (d : Bytes) (off : ℕ) :
    extHeader d next off = reject := by
  simp only [IsExtension, not_or] at hnext
  obtain ⟨h0, h43, h60, h51, h44⟩ := hnext
  rw [extHeader, if_neg (by tauto), if_neg h44]

/-! ## The encoding of a chain -/

/-- The extension headers the walk knows. -/
inductive ExtKind where
  | hopByHop
  | routing
  | dstOpts
  | ah
  | fragment
  deriving DecidableEq

namespace ExtKind

/-- The protocol number of the header. -/
def number : ExtKind → UInt8
  | hopByHop => 0
  | routing => 43
  | dstOpts => 60
  | ah => 51
  | fragment => 44

/-- The length of a header of each kind, given its second byte. -/
def size (len : UInt8) : ExtKind → ℕ
  | ah => (len.toNat + 2) * 4
  | fragment => 8
  | _ => (len.toNat + 1) * 8

/-- A header has 8 bytes at least. -/
theorem eight_le_size (k : ExtKind) (len : UInt8) : 8 ≤ k.size len := by
  cases k <;> simp only [size] <;> omega

theorem number_eq_ah {k : ExtKind} : k.number = 51 ↔ k = ah := by
  cases k <;> decide

/-- All but the fragment header have a length byte. -/
theorem holdsLength {k : ExtKind} (hk : k ≠ fragment) : HoldsLength k.number := by
  cases k with
  | fragment => exact absurd rfl hk
  | _ => decide

/-- No extension header is a transport header. -/
theorem not_transport (k : ExtKind) : ¬ (k.number = IPPROTO_TCP ∨ k.number = IPPROTO_UDP) := by
  cases k <;> decide

end ExtKind

/-- An extension header: its kind, its second byte and the bytes after it. -/
structure ExtHeader where
  kind : ExtKind
  len : UInt8
  body : Bytes
  size : body.length + 2 = kind.size len

namespace ExtHeader

/-- The header in front of a header numbered `next`. -/
def encode (next : UInt8) (e : ExtHeader) : Bytes := next :: e.len :: e.body

/-- A fragment header's offset: the first 13 bits behind its second byte. -/
def fragmentOffset (e : ExtHeader) : ℕ := beAt 2 e.body 0 / 8

/-- The bytes of a header are as many as it says. -/
theorem length_encode (e : ExtHeader) (next : UInt8) : (e.encode next).length = e.kind.size e.len :=
  e.size

/-- The walk's unit for the length byte is the header's own, or does not matter. -/
def Agrees (next : UInt8) (e : ExtHeader) : Prop :=
  e.kind = .fragment ∨ e.len = 0 ∨ (e.kind = .ah ↔ next = 51)

/-- One step of the walk over an encoded header. -/
theorem extHeader_encode (e : ExtHeader) (next : UInt8) (a rest : Bytes) (ha : a.length < 2 ^ 32) :
    extHeader (a ++ (e.encode next ++ rest)) e.kind.number a.length
      = value (next, a.length + if e.kind = .fragment then 8 else skippedLen next e.len) := by
  have hlen : a.length + 8 ≤ (a ++ (e.encode next ++ rest)).length := by
    have hsize := e.kind.eight_le_size e.len
    rw [List.length_append, List.length_append, length_encode]
    omega
  have hnext : byteAt (a ++ (e.encode next ++ rest)) a.length = next := by
    rw [byteAt_append_right (le_refl _), Nat.sub_self]
    rfl
  have hbyte : byteAt (a ++ (e.encode next ++ rest)) (a.length + 1) = e.len := by
    rw [byteAt_append_right (by omega), Nat.add_sub_cancel_left]
    rfl
  by_cases hfrag : e.kind = .fragment
  · rw [hfrag, ExtKind.number, extHeader_fragment _ ha, if_neg (by omega), hnext, if_pos rfl]
  · rw [extHeader_length (ExtKind.holdsLength hfrag) _ ha, if_neg (by omega), hnext, hbyte,
      if_neg hfrag]

/-- Where the units agree, the parser steps over the header. -/
theorem Agrees.skipped {e : ExtHeader} {next : UInt8} (h : e.Agrees next) :
    (if e.kind = .fragment then 8 else skippedLen next e.len) = e.kind.size e.len := by
  by_cases hfrag : e.kind = .fragment
  · rw [if_pos hfrag, hfrag, ExtKind.size]
  rw [if_neg hfrag, skippedLen]
  obtain h | h | h := h
  · exact absurd h hfrag
  · rw [h]
    cases e.kind <;> simp [ExtKind.size] at hfrag ⊢
  · by_cases hah : e.kind = .ah
    · rw [if_pos (h.1 hah), hah, ExtKind.size]
    · rw [if_neg (mt h.2 hah)]
      cases hkind : e.kind <;> simp_all [ExtKind.size]

end ExtHeader

/-- The number in front of a chain that leads to a header numbered `proto`. -/
def firstNumber (proto : UInt8) : List ExtHeader → UInt8
  | [] => proto
  | e :: _ => e.kind.number

/-- The bytes of a chain: each header holds the number of the one behind it. -/
def encodeExts (proto : UInt8) : List ExtHeader → Bytes
  | [] => []
  | e :: es => e.encode (firstNumber proto es) ++ encodeExts proto es

/-- The walk steps over every header of the chain by the header's own length. -/
def UnitsAgree (proto : UInt8) : List ExtHeader → Prop
  | [] => True
  | e :: es => e.Agrees (firstNumber proto es) ∧ UnitsAgree proto es

/-- The first header comes first. -/
theorem length_encodeExts_cons (proto : UInt8) (e : ExtHeader) (es : List ExtHeader) :
    (encodeExts proto (e :: es)).length = e.kind.size e.len + (encodeExts proto es).length := by
  rw [encodeExts, List.length_append, ExtHeader.length_encode]

/-- Two runs of headers. -/
theorem encodeExts_append (proto : UInt8) (es fs : List ExtHeader) :
    encodeExts proto (es ++ fs) = encodeExts (firstNumber proto fs) es ++ encodeExts proto fs := by
  induction es with
  | nil => rfl
  | cons e es ih =>
      have hfirst : firstNumber proto (es ++ fs) = firstNumber (firstNumber proto fs) es := by
        cases es <;> rfl
      rw [List.cons_append, encodeExts, encodeExts, ih, hfirst, List.append_assoc]

/-- The number in front of two runs. -/
theorem firstNumber_append (proto : UInt8) (es fs : List ExtHeader) :
    firstNumber proto (es ++ fs) = firstNumber (firstNumber proto fs) es := by
  cases es <;> rfl

/-- **The walk over a chain** whose units agree ends behind it, at the number it leads to. -/
theorem walkExt_encode (proto : UInt8) {stop : ℕ} (hstop : stop < 2 ^ 32) (n : ℕ) (rest : Bytes)
    (es : List ExtHeader) :
    ∀ (a : Bytes), UnitsAgree proto es → (a ++ encodeExts proto es).length < stop →
      walkExt (a ++ (encodeExts proto es ++ rest)) stop (es.length + n) (firstNumber proto es)
          a.length
        = walkExt (a ++ (encodeExts proto es ++ rest)) stop n proto
          (a ++ encodeExts proto es).length := by
  induction es with
  | nil =>
      intro a _ _
      rw [List.length_nil, Nat.zero_add, encodeExts, List.append_nil, firstNumber]
  | cons e es ih =>
      intro a hagree hend
      have hhead := e.length_encode (firstNumber proto es)
      -- the header moves over to the part already walked
      have hmove : a ++ (encodeExts proto (e :: es) ++ rest)
          = (a ++ e.encode (firstNumber proto es)) ++ (encodeExts proto es ++ rest) := by
        simp [encodeExts]
      have hwalked : a ++ encodeExts proto (e :: es)
          = (a ++ e.encode (firstNumber proto es)) ++ encodeExts proto es := by
        simp [encodeExts]
      have hstep := e.extHeader_encode (firstNumber proto es) a (encodeExts proto es ++ rest)
        (by rw [List.length_append] at hend; omega)
      rw [hagree.1.skipped] at hstep
      have hrest := ih (a ++ e.encode (firstNumber proto es)) hagree.2 (by rwa [← hwalked])
      rw [List.length_append, hhead] at hrest
      have hin : ¬ stop ≤ a.length + e.kind.size e.len := by
        rw [hwalked, List.length_append, List.length_append, hhead] at hend
        omega
      rw [List.length_cons, Nat.add_right_comm, walkExt, firstNumber,
        if_neg e.kind.not_transport, hmove, List.append_assoc, hstep, value_bind]
      simp only [if_neg hin]
      rw [← List.append_assoc, hrest, hwalked]

/-! ## Packets with a chain -/

/-- The protocol's number. -/
def Protocol.number : Protocol → UInt8
  | tcp => IPPROTO_TCP
  | udp => IPPROTO_UDP

/-- The numbers of the transport headers the parser decodes. -/
def IsTransport (next : UInt8) : Prop := next = IPPROTO_TCP ∨ next = IPPROTO_UDP

instance (next : UInt8) : Decidable (IsTransport next) := by unfold IsTransport; infer_instance

/-- The protocols are transports. -/
theorem Protocol.isTransport (proto : Protocol) : IsTransport proto.number := by
  cases proto <;> decide

/-- The bytes start with a whole transport header. -/
def StartsWithHeader (l4 : Bytes) : Protocol → Prop
  | .tcp => 20 ≤ dataOff l4 ∧ dataOff l4 ≤ l4.length
  | .udp => 8 ≤ l4.length

/-- The record of the transport header in front of `l4`. -/
def transportRecord (srcIp dstIp : IpAddr) (ttl : UInt8) (l4 : Bytes) (tsNanos : ℕ)
    (iface : UInt32) : Protocol → PacketMeta
  | .tcp => tcpRecord srcIp dstIp ttl l4 (l4.length - dataOff l4) tsNanos iface
  | .udp => udpRecord srcIp dstIp ttl l4 tsNanos iface

/-- An IPv6 packet in its link-layer frame, all there: up to eight extension headers, every
fragment header among them at offset zero, then a transport header with its payload. -/
structure ExtPacket where
  link : Link
  ip : Ipv6
  exts : List ExtHeader
  proto : Protocol
  l4 : Bytes
  padding : Bytes
  le_eight : exts.length ≤ 8
  first : ∀ e ∈ exts, e.kind = .fragment → e.fragmentOffset = 0
  header : StartsWithHeader l4 proto
  fits : (encodeExts proto.number exts).length + l4.length < 2 ^ 16

/-- What the parser does behind the fixed header of an IPv6 packet that is all there. -/
theorem parseFrame_ipv6 (link : Link) (ip : Ipv6) (number : UInt8) {n : ℕ} {rest : Bytes}
    (hfits : n < 2 ^ 16) (hrest : n ≤ rest.length) (tsNanos : ℕ) (iface : UInt32) :
    parseFrame link.linktype (link.encode ETH_P_IPV6 ++ (ip.encode number n ++ rest)) tsNanos iface
      = (do
        let (next, off) ← walkExt (ip.encode number n ++ rest) (40 + n) 8 number 40
        let l4 ← getFrom (ip.encode number n ++ rest) off
        finish next (.v6 ip.src) (.v6 ip.dst) ip.hopLimit l4 (40 + n - off) tsNanos iface) := by
  have hlen := ip.length_encode number n
  have hheader := ip.ipHeader_encode number n rest hfits
  rw [ipHeader_ipv6] at hheader
  have hnumber : byteAt (ip.encode number n ++ rest) 6 = number := congrArg IpHeader.proto hheader
  have hlimit : byteAt (ip.encode number n ++ rest) 7 = ip.hopLimit :=
    congrArg IpHeader.ttl hheader
  have hsrc : IpAddr.v6 (octetsAt 16 (ip.encode number n ++ rest) 8) = .v6 ip.src :=
    congrArg IpHeader.src hheader
  have hdst : IpAddr.v6 (octetsAt 16 (ip.encode number n ++ rest) 24) = .v6 ip.dst :=
    congrArg IpHeader.dst hheader
  have hpayload : beAt 2 (ip.encode number n ++ rest) 4 = n := congrArg IpHeader.payload hheader
  have hstop : min (40 + n) (ip.encode number n ++ rest).length = 40 + n := by
    rw [List.length_append, hlen]
    omega
  have hpos : 0 < (ip.encode number n ++ rest).length := by
    rw [List.length_append, hlen]
    omega
  have hstrip := link.stripLink_encode (Or.inr rfl) hpos
    (Ip.versionEthertype_encode (.v6 ip) number rest _)
  rw [parseFrame_of_stripLink hstrip, if_neg (by decide), if_pos rfl, parseIpv6_eq,
    if_neg (by rw [List.length_append, hlen]; omega), hnumber, hlimit, hsrc, hdst, hpayload, hstop]

namespace ExtPacket

variable (p : ExtPacket)

/-- The length of the extension headers. -/
def extsLen : ℕ := (encodeExts p.proto.number p.exts).length

/-- The number in the fixed header, and the header itself. -/
def fixedHeader : Bytes :=
  p.ip.encode (firstNumber p.proto.number p.exts) (p.extsLen + p.l4.length)

/-- The packet and the padding behind it. -/
def packet : Bytes := p.fixedHeader ++ (encodeExts p.proto.number p.exts ++ (p.l4 ++ p.padding))

/-- The bytes of the frame. -/
def encode : Bytes := p.link.encode ETH_P_IPV6 ++ p.packet

/-- The record the packet stands for: every field is read at offset 40 plus the lengths of the
extension headers. -/
def record (tsNanos : ℕ) (iface : UInt32) : PacketMeta :=
  transportRecord (.v6 p.ip.src) (.v6 p.ip.dst) p.ip.hopLimit p.l4 tsNanos iface p.proto

/-- The parser finds the transport header. -/
def Found : Prop := ∀ tsNanos iface,
  parseFrame p.link.linktype p.encode tsNanos iface = value (p.record tsNanos iface)

/-- The packet has a transport header. -/
theorem l4_length_pos : 0 < p.l4.length := by
  have h := p.header
  cases hproto : p.proto with
  | tcp =>
      rw [hproto] at h
      exact Nat.lt_of_lt_of_le (by omega) (h.1.trans h.2)
  | udp =>
      rw [hproto] at h
      exact Nat.lt_of_lt_of_le (by omega) h

/-- The bytes behind the packet do not matter to `finish`. -/
theorem finish_padding (tsNanos : ℕ) (iface : UInt32) :
    finish p.proto.number (.v6 p.ip.src) (.v6 p.ip.dst) p.ip.hopLimit (p.l4 ++ p.padding)
      p.l4.length tsNanos iface = value (p.record tsNanos iface) := by
  have htake : (p.l4 ++ p.padding).take p.l4.length = p.l4 := List.take_left
  have hheader := p.header
  rw [record]
  cases hproto : p.proto with
  | tcp =>
      rw [hproto] at hheader
      have hlen : 20 ≤ p.l4.length := hheader.1.trans hheader.2
      have hoff : dataOff (p.l4 ++ p.padding) = dataOff p.l4 := by
        rw [← dataOff_take hlen, htake]
      rw [Protocol.number, finish_tcp, if_neg, hoff, ← tcpRecord_take hlen, htake, transportRecord]
      rw [hoff, List.length_append]
      have hdata : 20 ≤ dataOff p.l4 := hheader.1
      omega
  | udp =>
      rw [hproto] at hheader
      have hlen : 8 ≤ p.l4.length := hheader
      rw [Protocol.number, finish_udp, if_neg, ← udpRecord_take hlen, htake, transportRecord]
      rw [List.length_append]
      omega

/-- The fixed header has 40 bytes. -/
theorem length_fixedHeader : p.fixedHeader.length = 40 := p.ip.length_encode _ _

/-- The packet from its transport header on. -/
theorem drop_packet (n : ℕ) : p.packet.drop (40 + p.extsLen + n) = (p.l4 ++ p.padding).drop n := by
  have hwalked : (p.fixedHeader ++ encodeExts p.proto.number p.exts).length = 40 + p.extsLen := by
    rw [List.length_append, length_fixedHeader, extsLen]
  rw [packet, ← List.append_assoc, ← hwalked, List.drop_length_add_append]

/-- What the parser does with the packet: walk the chain, then decode. -/
theorem parseFrame_encode (tsNanos : ℕ) (iface : UInt32) :
    parseFrame p.link.linktype p.encode tsNanos iface = (do
      let (next, off) ← walkExt p.packet (40 + (p.extsLen + p.l4.length)) 8
        (firstNumber p.proto.number p.exts) 40
      let l4 ← getFrom p.packet off
      finish next (.v6 p.ip.src) (.v6 p.ip.dst) p.ip.hopLimit l4
        (40 + (p.extsLen + p.l4.length) - off) tsNanos iface) := by
  apply parseFrame_ipv6 p.link p.ip _ p.fits
  rw [List.length_append, List.length_append]
  omega

/-- **The transport header is found** behind every chain whose units agree. -/
theorem found_of_unitsAgree (h : UnitsAgree p.proto.number p.exts) : p.Found := by
  intro tsNanos iface
  have hfixed := p.length_fixedHeader
  have hfits := p.fits
  have hpos := p.l4_length_pos
  have hwalked : (p.fixedHeader ++ encodeExts p.proto.number p.exts).length = 40 + p.extsLen := by
    rw [List.length_append, hfixed, extsLen]
  have hstop : 40 + (p.extsLen + p.l4.length) < 2 ^ 32 := by
    rw [extsLen]
    omega
  have hwalk := walkExt_encode p.proto.number hstop (8 - p.exts.length) (p.l4 ++ p.padding) p.exts
    p.fixedHeader h
    (by rw [hwalked]; omega)
  rw [Nat.add_sub_cancel' p.le_eight, hwalked, hfixed, walkExt_transport p.proto.isTransport]
    at hwalk
  have hin : 40 + p.extsLen ≤ p.packet.length := by
    rw [packet, ← List.append_assoc, List.length_append, hwalked]
    omega
  have hrest : 40 + (p.extsLen + p.l4.length) - (40 + p.extsLen) = p.l4.length := by omega
  rw [parseFrame_encode, packet, hwalk, value_bind, ← packet]
  simp only []
  rw [getFrom_of_le hin, value_bind, show p.packet.drop (40 + p.extsLen) = p.l4 ++ p.padding
    from p.drop_packet 0, hrest]
  exact p.finish_padding tsNanos iface

/-- The kinds of the headers, in order. -/
def kinds : List ExtKind := p.exts.map ExtHeader.kind

end ExtPacket

/-! ## What the walk does with any header -/

theorem not_isTransport_of_holdsLength {next : UInt8} (h : HoldsLength next) :
    ¬ IsTransport next := by
  obtain rfl | rfl | rfl | rfl := h <;> decide

/-- A step over a header with a length byte. -/
theorem walkExt_length {next : UInt8} (hnext : HoldsLength next) (d : Bytes) {off : ℕ}
    (hoff : off < 2 ^ 32) (stop n : ℕ) :
    walkExt d stop (n + 1) next off =
      if d.length < off + 2 then reject
      else if stop ≤ off + skippedLen (byteAt d off) (byteAt d (off + 1)) then reject
      else walkExt d stop n (byteAt d off)
        (off + skippedLen (byteAt d off) (byteAt d (off + 1))) := by
  have hor : ¬ (next = IPPROTO_TCP ∨ next = IPPROTO_UDP) := not_isTransport_of_holdsLength hnext
  rw [walkExt, if_neg hor, extHeader_length hnext d hoff]
  split
  · rfl
  · rfl

/-- A step over a fragment header. -/
theorem walkExt_fragment (d : Bytes) {off : ℕ} (hoff : off < 2 ^ 32) (stop n : ℕ) :
    walkExt d stop (n + 1) 44 off =
      if d.length ≤ off then reject
      else if stop ≤ off + 8 then reject
      else walkExt d stop n (byteAt d off) (off + 8) := by
  rw [walkExt, if_neg (by decide), extHeader_fragment d hoff]
  split
  · rfl
  · rfl

/-- Nothing else is stepped over. -/
theorem walkExt_other {next : UInt8} (hnext : ¬ IsTransport next) (hext : ¬ IsExtension next)
    (d : Bytes) (stop n off : ℕ) : walkExt d stop (n + 1) next off = reject := by
  have hor : ¬ (next = IPPROTO_TCP ∨ next = IPPROTO_UDP) := hnext
  rw [walkExt, if_neg hor, extHeader_other hext, reject_bind]

theorem not_isExtension {next : UInt8} (hlength : ¬ HoldsLength next) (hfrag : next ≠ 44) :
    ¬ IsExtension next := by
  simp only [IsExtension, HoldsLength] at *
  tauto

/-! ## Packets that are lost -/

/-- No-next-header stops the walk. -/
theorem walkExt_noNext (d : Bytes) (stop n off : ℕ) :
    (walkExt d stop n 59 off).Ensures fun r => ¬ IsTransport r.1 := by
  cases n with
  | zero =>
      show ¬ IsTransport 59
      decide
  | succ n =>
      rw [walkExt_other (by decide) (by decide)]
      trivial

/-- So does a header that is followed by no-next-header. -/
theorem walkExt_stray {next : UInt8} (hnext : ¬ IsTransport next) {d : Bytes} {off : ℕ}
    (hbyte : byteAt d off = 59) (hoff : off < 2 ^ 32) (stop n : ℕ) :
    (walkExt d stop n next off).Ensures fun r => ¬ IsTransport r.1 := by
  cases n with
  | zero => exact hnext
  | succ n =>
      by_cases hlength : HoldsLength next
      · rw [walkExt_length hlength d hoff, hbyte]
        split_ifs
        · trivial
        · trivial
        · exact walkExt_noNext d stop n _
      by_cases hfrag : next = 44
      · rw [hfrag, walkExt_fragment d hoff, hbyte]
        split_ifs
        · trivial
        · trivial
        · exact walkExt_noNext d stop n _
      · rw [walkExt_other hnext (not_isExtension hlength hfrag)]
        trivial

/-- A header filled with no-next-header numbers, behind a fragment offset of zero. -/
def ExtHeader.filler (len : UInt8) (kind : ExtKind) : ExtHeader where
  kind := kind
  len := len
  body := 0 :: 0 :: List.replicate (kind.size len - 4) 59
  size := by
    have hsize := kind.eight_le_size len
    simp only [List.length_cons, List.length_replicate]
    omega

/-- A filler is no later fragment. -/
theorem ExtHeader.fragmentOffset_filler (len : UInt8) (kind : ExtKind) :
    (filler len kind).fragmentOffset = 0 := by
  show beAt 2 (beBytes 2 0 ++ (List.replicate (kind.size len - 4) 59 : Bytes)) 0 / 8 = 0
  rw [beAt_self _ (by norm_num)]

/-- A transport header without payload. -/
def bareHeader : Protocol → Bytes
  | .tcp => List.replicate 12 0 ++ (0x50 :: List.replicate 7 0)
  | .udp => List.replicate 8 0

/-- A header without payload. -/
theorem bareHeader_startsWith (proto : Protocol) : StartsWithHeader (bareHeader proto) proto := by
  cases proto with
  | tcp => exact ⟨by decide, by decide⟩
  | udp => exact le_refl 8

/-- Every length byte is zero but that of the last authentication header. -/
def lostExts (pre post : List ExtKind) : List ExtHeader :=
  pre.map (ExtHeader.filler 0) ++ ExtHeader.filler 1 .ah :: post.map (ExtHeader.filler 0)

/-- Bounded headers are bounded together. -/
theorem length_encodeExts_le {bound : ℕ} (proto : UInt8) {es : List ExtHeader}
    (h : ∀ e ∈ es, e.kind.size e.len ≤ bound) :
    (encodeExts proto es).length ≤ es.length * bound := by
  induction es with
  | nil => exact Nat.zero_le _
  | cons e es ih =>
      have hhead := h e List.mem_cons_self
      have htail := ih fun e' he' => h e' (List.mem_cons_of_mem e he')
      rw [length_encodeExts_cons, List.length_cons, Nat.add_mul, Nat.one_mul]
      omega

/-- The headers of the counterexamples are short. -/
theorem size_lostExts (pre post : List ExtKind) :
    ∀ e ∈ lostExts pre post, e.kind.size e.len ≤ 12 := by
  intro e h
  have hzero (k : ExtKind) : k.size 0 ≤ 12 := by cases k <;> decide
  simp only [lostExts, List.mem_append, List.mem_cons, List.mem_map] at h
  obtain ⟨k, -, rfl⟩ | rfl | ⟨k, -, rfl⟩ := h
  · exact hzero k
  · exact le_refl 12
  · exact hzero k

/-- The packet with these headers. -/
def lostPacket (proto : Protocol) (pre post : List ExtKind) (h : pre.length + post.length < 8) :
    ExtPacket where
  link := .raw
  ip := ⟨⟨List.replicate 16 0, rfl⟩, ⟨List.replicate 16 0, rfl⟩, 64, 0, ⟨[0, 0, 0], rfl⟩⟩
  exts := lostExts pre post
  proto := proto
  l4 := bareHeader proto
  padding := []
  le_eight := by
    simp only [lostExts, List.length_append, List.length_map, List.length_cons]
    omega
  first := by
    intro e he _
    simp only [lostExts, List.mem_append, List.mem_cons, List.mem_map] at he
    obtain ⟨k, -, rfl⟩ | rfl | ⟨k, -, rfl⟩ := he <;> exact ExtHeader.fragmentOffset_filler _ _
  header := bareHeader_startsWith proto
  fits := by
    have hexts := length_encodeExts_le proto.number (size_lostExts pre post)
    have hl4 : (bareHeader proto).length ≤ 20 := by cases proto <;> decide
    have hcount : (lostExts pre post).length ≤ 8 := by
      simp only [lostExts, List.length_append, List.length_map, List.length_cons]
      omega
    omega

section Lost

variable (proto : Protocol) (pre post : List ExtKind)

/-- Headers of minimal length agree in any unit. -/
theorem unitsAgree_filler (number : UInt8) (ks : List ExtKind) :
    UnitsAgree number (ks.map (ExtHeader.filler 0)) := by
  induction ks with
  | nil => trivial
  | cons k ks ih => exact ⟨Or.inr (Or.inl rfl), ih⟩

/-- The last authentication header is overshot by four bytes.  That leads into the header
behind it, where the walk is lost, or into the transport header. -/
theorem walkExt_overshoot (hpost : ExtKind.ah ∉ post) (stop m : ℕ) {before : Bytes}
    (hbefore : before.length < 2 ^ 31) (l4 : Bytes) :
    (walkExt (before ++ (encodeExts proto.number
        (ExtHeader.filler 1 .ah :: post.map (ExtHeader.filler 0)) ++ l4))
        stop (m + 1) 51 before.length).Ensures fun r =>
      ¬ IsTransport r.1 ∨ post = [] ∧ r = (proto.number, before.length + 16) := by
  have hstep (next : UInt8) (hnext : next ≠ 51) (rest : Bytes) :
      extHeader (before ++ ((ExtHeader.filler 1 .ah).encode next ++ rest)) 51 before.length
        = value (next, before.length + 16) := by
    have h := (ExtHeader.filler 1 .ah).extHeader_encode next before rest (by omega)
    rw [if_neg (by decide), skippedLen, if_neg hnext] at h
    exact h
  rw [walkExt, if_neg (by decide), encodeExts, List.append_assoc, hstep, value_bind]
  · simp only []
    split
    · trivial
    cases post with
    | nil =>
        rw [List.map_nil, firstNumber, walkExt_transport proto.isTransport]
        exact Or.inr ⟨rfl, rfl⟩
    | cons k ks =>
        refine (walkExt_stray k.not_transport ?_ (by omega) stop m).imp fun r hr => Or.inl hr
        -- the fifth byte of the header behind
        obtain ⟨n, hn⟩ : ∃ n, k.size 0 - 4 = n + 1 := by
          have hsize := k.eight_le_size 0
          exact ⟨k.size 0 - 5, by omega⟩
        rw [byteAt_append_right (by omega), Nat.add_sub_cancel_left]
        show byteAt (List.replicate (k.size 0 - 4) 59 ++ _ ++ l4) 0 = 59
        rw [hn, List.replicate_succ]
        rfl
  · cases post with
    | nil =>
        show proto.number ≠ 51
        cases proto <;> decide
    | cons k ks =>
        show k.number ≠ 51
        rw [Ne, ExtKind.number_eq_ah]
        rintro rfl
        exact hpost List.mem_cons_self

/-- What is left of a bare header four bytes in is too short. -/
theorem finish_bareHeader (src dst : IpAddr) (ttl : UInt8) (n tsNanos : ℕ) (iface : UInt32) :
    finish proto.number src dst ttl ((bareHeader proto).drop 4) n tsNanos iface = reject := by
  cases proto with
  | tcp => rw [Protocol.number, finish_tcp, if_pos (Or.inl (by decide))]
  | udp => rw [Protocol.number, finish_udp, if_pos (by decide)]

/-- The walk over the packet. -/
theorem walkExt_lostPacket (hpost : ExtKind.ah ∉ post) (h : pre.length + post.length < 8)
    {a : Bytes} (ha : a.length = 40) (l4 : Bytes) {stop : ℕ} (hstop : stop < 2 ^ 31)
    (hend : 40 + (encodeExts proto.number (lostExts pre post)).length < stop) :
    (walkExt (a ++ (encodeExts proto.number (lostExts pre post) ++ l4)) stop 8
        (firstNumber proto.number (lostExts pre post)) 40).Ensures fun r =>
      ¬ IsTransport r.1 ∨ post = [] ∧ r =
        (proto.number, 40 + (encodeExts proto.number (lostExts pre post)).length + 4) := by
  have hsplit : encodeExts proto.number (lostExts pre post)
      = encodeExts 51 (pre.map (ExtHeader.filler 0))
        ++ encodeExts proto.number (ExtHeader.filler 1 .ah :: post.map (ExtHeader.filler 0)) :=
    encodeExts_append _ _ _
  have hfirst : firstNumber proto.number (lostExts pre post)
      = firstNumber 51 (pre.map (ExtHeader.filler 0)) := firstNumber_append _ _ _
  have hah : 12 ≤ (encodeExts proto.number
      (ExtHeader.filler 1 .ah :: post.map (ExtHeader.filler 0))).length := by
    rw [length_encodeExts_cons]
    exact Nat.le_add_right 12 _
  rw [hsplit, List.length_append] at hend
  rw [hsplit, hfirst, List.append_assoc]
  obtain ⟨m, hm⟩ : ∃ m, 8 - pre.length = m + 1 := ⟨8 - pre.length - 1, by omega⟩
  have hwalk := walkExt_encode 51 (hstop.trans (by decide)) (8 - pre.length)
    (encodeExts proto.number (ExtHeader.filler 1 .ah :: post.map (ExtHeader.filler 0)) ++ l4)
    (pre.map (ExtHeader.filler 0)) a (unitsAgree_filler 51 pre)
    (by rw [List.length_append, ha]; omega)
  rw [List.length_map, Nat.add_sub_cancel' (by omega), ha, hm] at hwalk
  rw [hwalk, ← List.append_assoc]
  apply (walkExt_overshoot proto post hpost stop m (by rw [List.length_append, ha]; omega) l4).imp
  intro r hr
  obtain hr | ⟨rfl, rfl⟩ := hr
  · exact Or.inl hr
  · refine Or.inr ⟨rfl, ?_⟩
    rw [List.length_append, List.length_append, ha, List.map_nil, length_encodeExts_cons]
    simp only [Prod.mk.injEq, true_and]
    show _ = 40 + (_ + (12 + 0)) + 4
    omega

/-- **The packet is lost**: nothing is decoded. -/
theorem not_found_lostPacket (hpost : ExtKind.ah ∉ post) (h : pre.length + post.length < 8) :
    ¬ (lostPacket proto pre post h).Found := by
  let p := lostPacket proto pre post h
  have hfits := p.fits
  have hpos := p.l4_length_pos
  have hstop : 40 + (p.extsLen + p.l4.length) < 2 ^ 31 := by
    rw [ExtPacket.extsLen]
    omega
  have hwalk := walkExt_lostPacket proto pre post hpost h p.length_fixedHeader
    (bareHeader proto ++ []) hstop (Nat.add_lt_add_left (Nat.lt_add_of_pos_right hpos) 40)
  have hreject : (parseFrame p.link.linktype p.encode 0 0).Ensures fun _ => False := by
    rw [p.parseFrame_encode]
    apply hwalk.bind
    intro r hr
    apply (ensures_getFrom _ r.2).bind
    rintro l4 ⟨-, rfl⟩
    obtain hr | ⟨-, rfl⟩ := hr
    -- lost on the way, or four bytes into the transport header
    · rw [finish_other]
      · trivial
      · exact fun htcp => hr (Or.inl htcp)
      · exact fun hudp => hr (Or.inr hudp)
    · have hdrop := p.drop_packet 4
      simp only []
      rw [show p.packet.drop (40 + _ + 4) = (bareHeader proto ++ []).drop 4 from hdrop,
        List.append_nil, finish_bareHeader]
      trivial
  intro hfound
  have hvalue : parseFrame p.link.linktype p.encode 0 0 = value (p.record 0 0) := hfound 0 0
  rw [hvalue] at hreject
  exact hreject

end Lost

/-- The packet with the given kinds that is lost, if there is an authentication header. -/
theorem exists_lost {kinds : List ExtKind} (hle : kinds.length ≤ 8) (hah : ExtKind.ah ∈ kinds)
    (proto : Protocol) : ∃ p : ExtPacket, p.kinds = kinds ∧ p.proto = proto ∧ ¬ p.Found := by
  -- cut at the last authentication header
  obtain ⟨pre, post, rfl, hpost⟩ : ∃ pre post, kinds = pre ++ .ah :: post ∧ .ah ∉ post := by
    obtain ⟨back, front, hrev, hback⟩ := List.eq_append_cons_of_mem (List.mem_reverse.2 hah)
    refine ⟨front.reverse, back.reverse, ?_, mt List.mem_reverse.1 hback⟩
    have hkinds := congrArg List.reverse hrev
    rwa [List.reverse_reverse, List.reverse_append, List.reverse_cons, List.append_assoc,
      List.singleton_append] at hkinds
  have h : pre.length + post.length < 8 := by
    simp only [List.length_append, List.length_cons] at hle
    omega
  refine ⟨lostPacket proto pre post h, ?_, rfl, not_found_lostPacket proto pre post hpost h⟩
  show (lostExts pre post).map ExtHeader.kind = pre ++ .ah :: post
  have hid : ExtHeader.kind ∘ ExtHeader.filler 0 = id := rfl
  rw [lostExts, List.map_append, List.map_cons, List.map_map, List.map_map, hid, List.map_id,
    List.map_id]
  rfl

/-- Chains without an authentication header have one unit throughout. -/
theorem unitsAgree_of_no_ah (proto : Protocol) {es : List ExtHeader}
    (h : ExtKind.ah ∉ es.map ExtHeader.kind) : UnitsAgree proto.number es := by
  induction es with
  | nil => trivial
  | cons e es ih =>
      rw [List.map_cons, List.mem_cons, not_or] at h
      refine ⟨Or.inr (Or.inr ⟨fun hah => absurd hah.symm h.1, fun hnext => ?_⟩), ih h.2⟩
      cases es with
      | nil =>
          exfalso
          revert hnext
          show ¬ proto.number = 51
          cases proto <;> decide
      | cons e' es =>
          have hkind : e'.kind = .ah := ExtKind.number_eq_ah.1 hnext
          exact absurd (List.mem_cons.2 (Or.inl hkind.symm)) h.2

/-- **The extension-header walk** finds the transport header behind a sequence of headers on
every packet in which the unit of each length field is that of the header it belongs to: no
authentication header with a length in front of another kind, no other kind with a length in
front of an authentication header.  It is right on all packets with that sequence exactly if
there is no authentication header among them. -/
theorem ExtPacket.found_iff {kinds : List ExtKind} (hle : kinds.length ≤ 8) (proto : Protocol) :
    (∀ p : ExtPacket, p.kinds = kinds → p.proto = proto →
      UnitsAgree p.proto.number p.exts → p.Found) ∧
    ((∀ p : ExtPacket, p.kinds = kinds → p.proto = proto → p.Found) ↔ ExtKind.ah ∉ kinds) := by
  refine ⟨fun p _ _ => p.found_of_unitsAgree, fun h hah => ?_, ?_⟩
  · obtain ⟨p, hkinds, hproto, hlost⟩ := exists_lost hle hah proto
    exact hlost (h p hkinds hproto)
  · rintro hah p rfl rfl
    exact p.found_of_unitsAgree (unitsAgree_of_no_ah p.proto hah)

namespace Sample

/-- A SYN from port 5000 to port 80 behind an authentication header of 24 bytes. -/
def ahSyn : ExtPacket where
  link := .raw
  ip := ⟨⟨List.replicate 16 1, rfl⟩, ⟨List.replicate 16 2, rfl⟩, 64, 0, ⟨[0, 0, 0], rfl⟩⟩
  exts := [⟨.ah, 4, List.replicate 22 0, rfl⟩]
  proto := .tcp
  l4 := [0x13, 0x88, 0, 80, 0, 0, 0, 1, 0, 0, 0, 0, 0x50, 0x02, 0xfa, 0xf0, 0, 0, 0, 0]
  padding := []
  le_eight := by decide
  first := by decide
  header := ⟨by decide, by decide⟩
  fits := by decide

/-- A TCP packet behind hop-by-hop options of 16 bytes and a first fragment header. -/
def optionsFragment : ExtPacket where
  link := .raw
  ip := ⟨⟨List.replicate 16 1, rfl⟩, ⟨List.replicate 16 2, rfl⟩, 64, 0, ⟨[0, 0, 0], rfl⟩⟩
  exts := [⟨.hopByHop, 1, List.replicate 14 0, rfl⟩, ⟨.fragment, 0, List.replicate 6 0, rfl⟩]
  proto := .tcp
  l4 := [0x13, 0x88, 0, 80, 0, 0, 0, 1, 0, 0, 0, 0, 0x50, 0x02, 0xfa, 0xf0, 0, 0, 0, 0]
  padding := []
  le_eight := by decide
  first := by decide
  header := ⟨by decide, by decide⟩
  fits := by decide

end Sample

/-- The walk skips 40 bytes for the 24 of the authentication header and finds no room for
a TCP header. -/
theorem ahSyn_lost :
    parseFrame Sample.ahSyn.link.linktype Sample.ahSyn.encode 0 0 = reject ∧
      ¬ Sample.ahSyn.Found := by
  have hreject : parseFrame Sample.ahSyn.link.linktype Sample.ahSyn.encode 0 0 = reject := by
    decide
  refine ⟨hreject, fun hfound => ?_⟩
  have hvalue := hfound 0 0
  rw [hreject] at hvalue
  cases hvalue

/-- A packet with options and a fragment header is found, and an authentication header gets lost. -/
theorem found_optionsFragment : Sample.optionsFragment.Found ∧
    ((∀ p : ExtPacket, p.kinds = [.hopByHop, .ah] → p.proto = .udp → p.Found) ↔
      ExtKind.ah ∉ [.hopByHop, .ah]) := by
  have hopen : [ExtKind.hopByHop, .fragment].length ≤ 8 := by decide
  have hclosed : [ExtKind.hopByHop, .ah].length ≤ 8 := by decide
  refine ⟨(ExtPacket.found_iff hopen .tcp).1 Sample.optionsFragment rfl rfl ?_,
    (ExtPacket.found_iff hclosed .udp).2⟩
  exact unitsAgree_of_no_ah .tcp (by decide)
