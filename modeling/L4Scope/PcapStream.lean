/-
# The pcap stream reader

After `pcapio.rs` of `l4scope-capture`: opening a classic pcap stream and pulling the next
packet out of it.  The stream is a source that delivers its bytes in pieces; both loops that
read it (`read_full`, `read_full_opt`) are `Source.fill`, and differ in what they make of the
end of the data.

`nextPacket` skips records that hold no packet of interest; it ends because every record
read takes work off the source.
-/
import L4Scope.ChunkedReader
import L4Scope.ParseTotal

variable {ε : Type}

/-- The error type of the program; `ε` stands for the errors of the operating system. -/
inductive Error (ε : Type) where
  | io (e : ε)
  | parse (m : String)
  | config (m : String)
  | unsupportedBackend (m : String)
  deriving DecidableEq

/-! ## Reading exactly -/

/-- Read exactly `n` bytes or error. -/
def readFull (n : ℕ) (r : Source ε) : Except (Error ε) Bytes × Source ε :=
  match r.fill n [] with
  | (.full buf, r) => (.ok buf, r)
  | (.ended _, r) => (.error (.parse "unexpected end of pcap stream"), r)
  | (.failed e, r) => (.error (.io e), r)

/-- Like `readFull`, but a clean end before any byte returns `none`. -/
def readFullOpt (n : ℕ) (r : Source ε) : Except (Error ε) (Option Bytes) × Source ε :=
  match r.fill n [] with
  | (.full buf, r) => (.ok (some buf), r)
  | (.ended [], r) => (.ok none, r)
  | (.ended (_ :: _), r) => (.error (.parse "truncated pcap record header"), r)
  | (.failed e, r) => (.error (.io e), r)

/-- Reading adds no work. -/
theorem work_readFull {n : ℕ} {r r' : Source ε} {buf : Bytes}
    (h : readFull n r = (.ok buf, r')) : r'.work ≤ r.work := by
  rw [readFull] at h
  split at h
  case h_1 buf' r'' hfill =>
    simp only [Prod.mk.injEq] at h
    rw [← h.2]
    by_cases hn : ([] : Bytes).length < n
    · exact (Source.work_fill_lt hn hfill).le
    · rw [Source.fill, dif_neg hn, Prod.mk.injEq] at hfill
      rw [hfill.2]
  all_goals simp at h

/-- Reading some bytes leaves less. -/
theorem work_readFullOpt {n : ℕ} {r r' : Source ε} {buf : Bytes} (hn : 0 < n)
    (h : readFullOpt n r = (.ok (some buf), r')) : r'.work < r.work := by
  rw [readFullOpt] at h
  split at h
  case h_1 buf' r'' hfill =>
    simp only [Prod.mk.injEq] at h
    rw [← h.2]
    exact Source.work_fill_lt hn hfill
  all_goals simp at h

/-- A 32-bit header word, in the byte order of the file. -/
def readU32 (b : Octets 4) (little : Bool) : UInt32 :=
  .ofNat (beNat (if little then b.1.reverse else b.1))

/-! ## Opening -/

/-- Microsecond, little-endian on-disk. -/
def MAGIC_US_LE : UInt32 := 0xa1b2c3d4
/-- The same in the other byte order. -/
def MAGIC_US_BE : UInt32 := 0xd4c3b2a1
/-- Nanosecond. -/
def MAGIC_NS_LE : UInt32 := 0xa1b23c4d
/-- The same in the other byte order. -/
def MAGIC_NS_BE : UInt32 := 0x4d3cb2a1

/-- A reader behind the file header. -/
structure PcapStream (ε : Type) where
  inner : Source ε
  little : Bool
  nanos : Bool
  linktype : UInt32
  iface : UInt32
  deriving DecidableEq

/-- The text of `{:#010x}`. -/
def hexWord (x : UInt32) : String :=
  let digits := Nat.toDigits 16 x.toNat
  "0x" ++ String.ofList (List.replicate (8 - digits.length) '0' ++ digits)

/-- `u64::saturating_mul`. -/
def saturatingMul (a b : ℕ) : ℕ := min (a * b) (2 ^ 64 - 1)

/-- `u64::saturating_add`. -/
def saturatingAdd (a b : ℕ) : ℕ := min (a + b) (2 ^ 64 - 1)

namespace PcapStream

/-- The byte order and time unit a magic number, read little-endian, announces. -/
def ofMagic (magic : UInt32) : Option (Bool × Bool) :=
  if magic = MAGIC_US_LE then some (true, false)
  else if magic = MAGIC_US_BE then some (false, false)
  else if magic = MAGIC_NS_LE then some (true, true)
  else if magic = MAGIC_NS_BE then some (false, true)
  else none

/-- Read and validate the 24-byte global header. -/
def new (inner : Source ε) (iface : UInt32) : Except (Error ε) (PcapStream ε) :=
  match readFull 24 inner with
  | (.error e, _) => .error e
  | (.ok hdr, inner) =>
    let magic := readU32 (octetsAt 4 hdr 0) true
    match ofMagic magic with
    | some (little, nanos) =>
      let linktype := readU32 (octetsAt 4 hdr 20) little
      .ok { inner, little, nanos, linktype, iface }
    | none => .error (.parse s!"not a pcap stream (magic {hexWord magic})")

/-! ## The next packet -/

/-- The next packet, `none` at a clean end of the stream, or an error on a broken record. -/
def nextPacket (s : PcapStream ε) : Except (Error ε) (Option PacketMeta) × PcapStream ε :=
  match _hrec : readFullOpt 16 s.inner with
  | (.error e, inner) => (.error e, { s with inner })
  -- the end of the data between records is a clean end
  | (.ok none, inner) => (.ok none, { s with inner })
  | (.ok (some rec), inner) =>
    let tsSec := (readU32 (octetsAt 4 rec 0) s.little).toNat
    let tsFrac := (readU32 (octetsAt 4 rec 4) s.little).toNat
    let inclLen := (readU32 (octetsAt 4 rec 8) s.little).toNat
    if 262144 < inclLen then
      (.error (.parse s!"implausible record length {inclLen}"), { s with inner })
    else
      match _hbuf : readFull inclLen inner with
      | (.error e, inner) => (.error e, { s with inner })
      | (.ok buf, inner) =>
        let tsNanos := saturatingAdd (saturatingMul tsSec 1000000000)
          (if s.nanos then tsFrac else tsFrac * 1000)
        match frameRecord s.linktype buf tsNanos s.iface with
        | some pkt => (.ok (some pkt), { s with inner })
        -- not a frame of interest: keep reading
        | none => nextPacket { s with inner }
termination_by s.inner.work
decreasing_by
  exact (work_readFull _hbuf).trans_lt (work_readFullOpt (by omega) _hrec)

/-- Every packet takes work off the source. -/
theorem work_nextPacket {s s' : PcapStream ε} {pkt : PacketMeta}
    (h : s.nextPacket = (.ok (some pkt), s')) : s'.inner.work < s.inner.work := by
  fun_induction nextPacket s with
  | case1 => simp at h
  | case2 => simp at h
  | case3 => simp at h
  | case4 => simp at h
  | case5 s rec inner hrec tsSec tsFrac inclLen hlen buf inner' hbuf tsNanos pkt' hpkt =>
      simp only [Prod.mk.injEq] at h
      rw [← h.2]
      exact (work_readFull hbuf).trans_lt (work_readFullOpt (by omega) hrec)
  | case6 s rec inner hrec tsSec tsFrac inclLen hlen buf inner' hbuf tsNanos hpkt ih =>
      exact (ih h).trans ((work_readFull hbuf).trans_lt (work_readFullOpt (by omega) hrec))

/-- Pull packets until there are no more: the packets, and the error that stopped the stream,
if one did. -/
def packets (s : PcapStream ε) : List PacketMeta × Option (Error ε) :=
  match _h : s.nextPacket with
  | (.ok (some pkt), s') =>
    let r := packets s'
    (pkt :: r.1, r.2)
  | (.ok none, _) => ([], none)
  | (.error e, _) => ([], some e)
termination_by s.inner.work
decreasing_by
  exact work_nextPacket _h

end PcapStream
