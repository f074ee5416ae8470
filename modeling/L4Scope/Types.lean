/-
# Normalised, backend-independent data model

The types of `l4scope-core`: flow identity, the normalised packet record that
every capture backend emits (`PacketMeta`), and the events the engine reports
(`L4Event`).

Conventions of the whole development:

* a `u64` time or counter is a natural number (the program only subtracts such
  values with saturation, divides them and compares them); where a product can
  leave 64 bits the reduction is written out;
* `u8`, `u16` and `u32` fields keep their width, so arithmetic on them wraps;
* `f64` is a parameter: `F64 F` lists the operations the program performs on
  floating-point numbers, and nothing is assumed about them.
-/
import L4Scope.ByteString
import Mathlib.Data.List.Lex
import Mathlib.Data.Prod.Lex
import Mathlib.Data.Rat.Floor

/-! ## Floating point -/

/-- The floating-point operations the program uses. -/
class F64 (F : Type) where
  /-- `x as f64`. -/
  ofU64 : ℕ → F
  /-- The decimal literal `m · 10⁻ᵉ`. -/
  ofDecimal : (m e : ℕ) → F
  div : F → F → F
  mul : F → F → F
  lt : F → F → Bool
  le : F → F → Bool
  /-- The text of `{:.n}`. -/
  fixed : (n : ℕ) → F → String

/-- Round to the nearest integer, ties to even. -/
def roundHalfEven (q : ℚ) : ℤ :=
  let r := q - ⌊q⌋
  if r < 1 / 2 then ⌊q⌋
  else if 1 / 2 < r then ⌊q⌋ + 1
  else if ⌊q⌋ % 2 = 0 then ⌊q⌋ else ⌊q⌋ + 1

/-- The decimal text of `q` with `n` digits after the point. -/
def fixedRat (n : ℕ) (q : ℚ) : String :=
  let m := (roundHalfEven (|q| * 10 ^ n)).toNat
  let sign := if q < 0 then "-" else ""
  let digits := toString (m % 10 ^ n)
  let pad := String.ofList (List.replicate (n - digits.length) '0')
  if n = 0 then s!"{sign}{m}" else s!"{sign}{m / 10 ^ n}.{pad}{digits}"

/-- The exact reading of the floating-point operations. -/
instance : F64 ℚ where
  ofU64 n := n
  ofDecimal m e := m / 10 ^ e
  div := (· / ·)
  mul := (· * ·)
  lt a b := decide (a < b)
  le a b := decide (a ≤ b)
  fixed := fixedRat

/-! ## Endpoints -/

/-- Transport-layer protocol we track. -/
inductive Protocol where
  | tcp
  | udp
  deriving DecidableEq, Repr

/-- The name of a protocol. -/
def Protocol.asStr : Protocol → String
  | tcp => "tcp"
  | udp => "udp"

/-- An IP address by its octets in network order. -/
inductive IpAddr where
  | v4 (octets : Octets 4)
  | v6 (octets : Octets 16)
  deriving DecidableEq

/-- The derived order of addresses: IPv4 before IPv6, then the octets. -/
def IpAddr.ordKey : IpAddr → ℕ ×ₗ List ℕ
  | v4 o => toLex (4, o.1.map UInt8.toNat)
  | v6 o => toLex (6, o.1.map UInt8.toNat)

/-- Bytes are told apart by their numbers. -/
theorem map_toNat_injective : Function.Injective (List.map UInt8.toNat) :=
  List.map_injective_iff.2 fun _ _ h => UInt8.toNat_inj.1 h

/-- Addresses are told apart by their keys. -/
theorem IpAddr.ordKey_injective : Function.Injective IpAddr.ordKey := by
  intro a b h
  cases a <;> cases b <;>
    simp only [ordKey, EmbeddingLike.apply_eq_iff_eq, Prod.mk.injEq] at h
  case v4.v4 x y => rw [Subtype.ext (map_toNat_injective h.2)]
  case v6.v6 x y => rw [Subtype.ext (map_toNat_injective h.2)]
  all_goals omega

/-- One endpoint of a flow. -/
structure Endpoint where
  ip : IpAddr
  port : UInt16
  deriving DecidableEq

/-- The derived order of endpoints: the address, then the port. -/
def Endpoint.ordKey (e : Endpoint) : (ℕ ×ₗ List ℕ) ×ₗ ℕ := toLex (e.ip.ordKey, e.port.toNat)

/-- So are endpoints. -/
theorem Endpoint.ordKey_injective : Function.Injective Endpoint.ordKey := by
  rintro ⟨ip, port⟩ ⟨ip', port'⟩ h
  simp only [ordKey, EmbeddingLike.apply_eq_iff_eq, Prod.mk.injEq] at h
  rw [IpAddr.ordKey_injective h.1, UInt16.toNat_inj.1 h.2]

instance : LinearOrder Endpoint := LinearOrder.lift' Endpoint.ordKey Endpoint.ordKey_injective

/-! ## Display of addresses and endpoints -/

/-- The eight 16-bit groups of an IPv6 address. -/
def ipv6Segments (o : Octets 16) : List ℕ :=
  (List.range 8).map fun i => beNat [byteAt o.1 (2 * i), byteAt o.1 (2 * i + 1)]

/-- The first longest run of zero groups, as its start and length. -/
def longestZeroRun (segs : List ℕ) : ℕ × ℕ :=
  let step := fun (acc : (ℕ × ℕ) × (ℕ × ℕ)) (p : ℕ × ℕ) =>
    let (longest, current) := acc
    if p.1 = 0 then
      let current := (if current.2 = 0 then p.2 else current.1, current.2 + 1)
      (if longest.2 < current.2 then current else longest, current)
    else (longest, (0, 0))
  (segs.zipIdx.foldl step ((0, 0), (0, 0))).1

/-- Groups in lower-case hexadecimal, joined by colons. -/
def hexGroups (segs : List ℕ) : String :=
  ":".intercalate (segs.map fun s => String.ofList (Nat.toDigits 16 s))

/-- The text of an IPv4 address. -/
def ipv4Text (o : Bytes) : String := ".".intercalate (o.map fun b => toString b.toNat)

/-- IPv6 text: IPv4-mapped addresses in dotted form, else the first longest run of
two or more zero groups is written `::`. -/
def ipv6Text (o : Octets 16) : String :=
  if o.1.take 12 = List.replicate 10 0 ++ [0xff, 0xff] then
    let v4 := ipv4Text (o.1.drop 12)
    s!"::ffff:{v4}"
  else
    let segs := ipv6Segments o
    let zeroes := longestZeroRun segs
    if 1 < zeroes.2 then
      hexGroups (segs.take zeroes.1) ++ "::" ++ hexGroups (segs.drop (zeroes.1 + zeroes.2))
    else hexGroups segs

instance : ToString IpAddr where
  toString
    | .v4 o => ipv4Text o.1
    | .v6 o => ipv6Text o

instance : ToString Endpoint where
  toString e := match e.ip with
    | .v4 _ => s!"{e.ip}:{e.port.toNat}"
    | .v6 _ => s!"[{e.ip}]:{e.port.toNat}"

/-! ## Flow identity -/

/-- Which side of the canonical flow a packet travelled on. -/
inductive Direction where
  /-- From the canonical "low" endpoint to the "high" endpoint. -/
  | forward
  /-- From "high" back to "low". -/
  | reverse
  deriving DecidableEq, Repr

/-- Direction-independent flow identity. -/
structure FlowKey where
  low : Endpoint
  high : Endpoint
  proto : Protocol
  deriving DecidableEq

/-- Build a canonical key from an observed (src, dst) pair and return the direction
the observed packet travelled. -/
def FlowKey.canonical (src dst : Endpoint) (proto : Protocol) : FlowKey × Direction :=
  if src ≤ dst then ({ low := src, high := dst, proto }, .forward)
  else ({ low := dst, high := src, proto }, .reverse)

/-- A key keeps its protocol. -/
theorem FlowKey.canonical_proto (src dst : Endpoint) (proto : Protocol) :
    (canonical src dst proto).1.proto = proto := by
  rw [canonical]
  split <;> rfl

instance : ToString FlowKey where
  toString k := s!"{k.proto.asStr} {k.low} <-> {k.high}"

/-- A two-element array indexed by `Direction::index`. -/
structure PerDir (α : Type) where
  forward : α
  reverse : α
  deriving DecidableEq

namespace PerDir

variable {α : Type}

/-- The value of a direction. -/
def get (a : PerDir α) : Direction → α
  | .forward => a.forward
  | .reverse => a.reverse

/-- The values with another one for a direction. -/
def set (a : PerDir α) : Direction → α → PerDir α
  | .forward, x => { a with forward := x }
  | .reverse, x => { a with reverse := x }

@[simp] theorem get_set (a : PerDir α) (d : Direction) (x : α) : (a.set d x).get d = x := by
  cases d <;> rfl

/-- The other direction is kept. -/
theorem get_set_ne (a : PerDir α) {d d' : Direction} (x : α) (h : d' ≠ d) :
    (a.set d x).get d' = a.get d' := by
  cases d <;> cases d' <;> first | rfl | exact absurd rfl h

end PerDir

/-! ## Packets -/

/-- TCP control flags, packed. -/
structure TcpFlags where
  bits : UInt8
  deriving DecidableEq, Repr

namespace TcpFlags

/-- The sender is done. -/
def FIN : UInt8 := 0x01
/-- Opens a connection. -/
def SYN : UInt8 := 0x02
/-- Resets it. -/
def RST : UInt8 := 0x04
/-- Push. -/
def PSH : UInt8 := 0x08
/-- The acknowledgement number counts. -/
def ACK : UInt8 := 0x10
/-- Urgent. -/
def URG : UInt8 := 0x20

/-- The flag is set. -/
def has (f : TcpFlags) (bit : UInt8) : Bool := f.bits &&& bit != 0

/-- SYN is set. -/
def syn (f : TcpFlags) : Bool := f.has SYN

/-- ACK is set. -/
def ack (f : TcpFlags) : Bool := f.has ACK

/-- FIN is set. -/
def fin (f : TcpFlags) : Bool := f.has FIN

/-- RST is set. -/
def rst (f : TcpFlags) : Bool := f.has RST

/-- True for a bare SYN (connection request, not SYN-ACK). -/
def isSynOnly (f : TcpFlags) : Bool := f.syn && !f.ack

/-- True for a SYN-ACK (connection acceptance). -/
def isSynAck (f : TcpFlags) : Bool := f.syn && f.ack

end TcpFlags

/-- A normalised packet record, the single unit of currency flowing from capture
backends into the detection engine. -/
structure PacketMeta where
  /-- Capture timestamp, nanoseconds since the UNIX epoch. -/
  tsNanos : ℕ
  key : FlowKey
  dir : Direction
  proto : Protocol
  /-- TCP flags (zeroed for UDP). -/
  flags : TcpFlags
  seq : UInt32
  ack : UInt32
  window : UInt32
  /-- L4 payload length in bytes (excludes headers). -/
  payloadLen : UInt32
  ttl : UInt8
  iface : UInt32
  deriving DecidableEq

/-! ## Events -/

/-- Anomaly categories the engine can report. -/
inductive EventKind where
  | retransmission
  | duplicateAck
  | outOfOrder
  | zeroWindow
  | rstStorm
  | handshakeFailure
  | handshakeTimeout
  | synBacklog
  | highRtt
  | connectionChurn
  deriving DecidableEq, Repr

/-- Severity ranking for events and alert routing. -/
inductive Severity where
  | info
  | warning
  | critical
  deriving DecidableEq, Repr

/-- An emitted L4 health event. -/
structure L4Event (F : Type) where
  tsNanos : ℕ
  kind : EventKind
  severity : Severity
  /-- The flow this event concerns. -/
  key : FlowKey
  /-- The primary metric value that triggered the event. -/
  value : F
  /-- Human-readable one-line explanation. -/
  detail : String
  deriving DecidableEq
