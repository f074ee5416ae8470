/-
# Replaying a capture file

A writer of classic pcap files: the file header in any byte order and time unit, and a record for
each frame, among records of other traffic.  The agent reads such a file back, however its bytes
arrive: its accounts are those of the engine's run on the packets in the frames, and a file that
is cut inside a record loses that record and nothing else (`Setup.replays`).
-/
import L4Scope.Agent
import L4Scope.FrameEncoding
import L4Scope.PcapRecords

/-! ## The file header -/

namespace Format

/-- A header word in the byte order of the file. -/
def encodeWord (f : Format) (n : ℕ) : Bytes :=
  if f.little then (beBytes 4 n).reverse else beBytes 4 n

/-- A word has four bytes. -/
theorem length_encodeWord (f : Format) (n : ℕ) : (f.encodeWord n).length = 4 := by
  rw [encodeWord]
  split_ifs <;> simp

/-- A word is read back. -/
theorem word_append (f : Format) {a : Bytes} {off n : ℕ} (rest : Bytes) (ha : a.length = off)
    (hn : n < 2 ^ 32) : f.word (a ++ (f.encodeWord n ++ rest)) off = n := by
  have hself : octetsAt 4 (f.encodeWord n ++ rest) 0 = ⟨f.encodeWord n, f.length_encodeWord n⟩ :=
    octetsAt_self ⟨f.encodeWord n, f.length_encodeWord n⟩ rest
  rw [word, octetsAt_append 4 _ ha, hself]
  dsimp only
  rw [encodeWord]
  cases f.little <;> simp [beNat_beBytes 4 n hn]

/-- The magic number in the byte order of the file. -/
def magic (f : Format) : Bytes :=
  f.encodeWord (if f.nanos then 0xa1b23c4d else 0xa1b2c3d4)

/-- The magic number says the format. -/
theorem fileFormat_magic (f : Format) : fileFormat f.magic = some f := by
  obtain ⟨little, nanos⟩ := f
  cases little <;> cases nanos <;> rfl

/-- The global header; the version, the zone and the snap length are not read back. -/
def fileHeader (f : Format) (ignored : Octets 16) (linktype : UInt32) : Bytes :=
  f.magic ++ (ignored.1 ++ f.encodeWord linktype.toNat)

/-- The file header has 24 bytes. -/
theorem length_fileHeader (f : Format) (ignored : Octets 16) (linktype : UInt32) :
    (f.fileHeader ignored linktype).length = 24 := by
  simp [fileHeader, magic, length_encodeWord, ignored.2]

end Format

/-! ## Records -/

/-- A frame that is decoded has its record. -/
theorem frameRecord_of_value {linktype : UInt32} {data : Bytes} {tsNanos : ℕ} {iface : UInt32}
    {m : PacketMeta} (h : parseFrame linktype data tsNanos iface = Outcome.value m) :
    frameRecord linktype data tsNanos iface = some m := by
  have hread (x : Outcome PacketMeta) (hx : x ≠ Outcome.panic) (hm : x = Outcome.value m) :
      x.toOption hx = some m := by
    subst hm
    rfl
  exact hread _ (parseFrame_ne_panic linktype data tsNanos iface) h

/-- What a record header says besides the length: the time, and the length on the wire. -/
structure Stamp where
  sec : UInt32
  frac : UInt32
  origLen : UInt32

namespace Stamp

variable (f : Format) (t : Stamp)

/-- Nanoseconds since the epoch. -/
def tsNanos : ℕ := t.sec.toNat * 10 ^ 9 + t.frac.toNat * (if f.nanos then 1 else 1000)

/-- The header of a record with `n` bytes. -/
def head (n : ℕ) : Bytes :=
  f.encodeWord t.sec.toNat ++ (f.encodeWord t.frac.toNat
    ++ (f.encodeWord n ++ f.encodeWord t.origLen.toNat))

/-- A record header has 16 bytes. -/
theorem length_head (n : ℕ) : (t.head f n).length = 16 := by
  simp [head, Format.length_encodeWord]

/-- Its seconds. -/
theorem word_head_zero (n : ℕ) : f.word (t.head f n) 0 = t.sec.toNat :=
  f.word_append (a := []) _ rfl t.sec.toNat_lt

/-- The fraction. -/
theorem word_head_four (n : ℕ) : f.word (t.head f n) 4 = t.frac.toNat :=
  f.word_append _ (f.length_encodeWord _) t.frac.toNat_lt

/-- The length. -/
theorem word_head_eight {n : ℕ} (hn : n ≤ MAX_RECORD) : f.word (t.head f n) 8 = n := by
  have hlt : n < 2 ^ 32 := Nat.lt_of_le_of_lt hn (by decide)
  have hlen : (f.encodeWord t.sec.toNat ++ f.encodeWord t.frac.toNat).length = 8 := by
    simp [Format.length_encodeWord]
  have hread := f.word_append (f.encodeWord t.origLen.toNat) hlen hlt
  rwa [List.append_assoc] at hread

/-- The record as the reader finds it. -/
def record (body : Bytes) (hbody : body.length ≤ MAX_RECORD) : Record f where
  head := ⟨t.head f body.length, t.length_head f _⟩
  body := body
  length_body := (t.word_head_eight f hbody).symm
  length_le := hbody

/-- The time of the record. -/
theorem tsNanos_record (body : Bytes) (hbody : body.length ≤ MAX_RECORD) :
    (t.record f body hbody).tsNanos = t.tsNanos f := by
  have hsec : f.word (t.record f body hbody).head.1 0 = _ := t.word_head_zero f _
  have hfrac : f.word (t.record f body hbody).head.1 4 = _ := t.word_head_four f _
  rw [Record.tsNanos, hsec, hfrac, tsNanos]

end Stamp

/-- What a record holds: a frame, or bytes in which the parser finds no packet. -/
inductive Content (linktype : UInt32) where
  | frame (whole : Frame) (link : whole.link.linktype = linktype)
  | other (body : Bytes)
      (skipped : ∀ tsNanos iface, frameRecord linktype body tsNanos iface = none)

/-- The bytes of the content. -/
def Content.body {linktype : UInt32} : Content linktype → Bytes
  | frame whole _ => whole.encode
  | other body _ => body

/-- A record to be written. -/
structure Item (linktype : UInt32) where
  stamp : Stamp
  content : Content linktype
  fits : content.body.length ≤ MAX_RECORD

namespace Item

variable {linktype : UInt32} (f : Format) (i : Item linktype)

/-- The packet the agent is to see. -/
def packet? (iface : UInt32) : Option PacketMeta :=
  match i.content with
  | .frame whole _ => some (whole.record (i.stamp.tsNanos f) iface)
  | .other .. => none

/-- The bytes of the item in the file. -/
def encode : Bytes := i.stamp.head f i.content.body.length ++ i.content.body

/-- The record as the reader finds it. -/
def record : Record f := i.stamp.record f i.content.body i.fits

/-- The parser finds the packet of the record. -/
theorem frameRecord_record (iface : UInt32) :
    frameRecord linktype (i.record f).body (i.record f).tsNanos iface = i.packet? f iface := by
  have hbody : (i.record f).body = i.content.body := rfl
  have htime : (i.record f).tsNanos = i.stamp.tsNanos f := i.stamp.tsNanos_record f _ i.fits
  rw [htime, hbody, packet?]
  generalize i.stamp.tsNanos f = tsNanos
  cases i.content with
  | frame whole link =>
      have hparse := whole.parseFrame_encode tsNanos iface
      rw [link] at hparse
      exact frameRecord_of_value hparse
  | other body skipped => exact skipped tsNanos iface

/-- A record that is cut leaves nothing, or bytes that hold no whole record. -/
theorem rest_of_cut {n : ℕ} (h : n < (i.encode f).length) :
    (i.encode f).take n = [] ∨ Broken f ((i.encode f).take n) := by
  by_cases hn : n = 0
  · exact Or.inl (by rw [hn, List.take_zero])
  right
  have hlen : ((i.encode f).take n).length = n := List.length_take_of_le h.le
  refine ⟨?_, ?_⟩
  · rw [← List.length_pos_iff, hlen]
    omega
  by_cases h16 : n < 16
  · exact Or.inl (by rwa [hlen])
  · right
    right
    have hword : f.word ((i.encode f).take n) 8 = i.content.body.length := by
      rw [Format.word, octetsAt_take _ (by omega), encode, ← octetsAt_take _ (k := 16) (by omega),
        List.take_left' (i.stamp.length_head f _), ← Format.word,
        i.stamp.word_head_eight f i.fits]
    rw [encode, List.length_append, Stamp.length_head] at h
    rw [hword, hlen]
    exact h

end Item

/-! ## Files -/

namespace Format

variable {linktype : UInt32} (f : Format) (ignored : Octets 16)

/-- A file with the given records. -/
def file (items : List (Item linktype)) : Bytes :=
  f.fileHeader ignored linktype ++ items.flatMap (Item.encode f)

/-- The packets in a file. -/
def packets (iface : UInt32) (items : List (Item linktype)) : List PacketMeta :=
  items.filterMap fun i => i.packet? f iface

end Format

variable {ε : Type}

namespace Format

variable {linktype : UInt32} (f : Format) (ignored : Octets 16) (rest : Bytes)

/-- A file is its magic number, the header up to the link type, the link type, and its records. -/
theorem take_four_header : (f.fileHeader ignored linktype ++ rest).take 4 = f.magic := by
  rw [fileHeader, List.append_assoc]
  exact List.take_left' (f.length_encodeWord _)

/-- The link type in the file header. -/
theorem word_header : f.word (f.fileHeader ignored linktype ++ rest) 20 = linktype.toNat := by
  have hlen : (f.magic ++ ignored.1).length = 20 := by
    simp [magic, length_encodeWord, ignored.2]
  have hread := f.word_append rest hlen linktype.toNat_lt
  rwa [← List.append_assoc, List.append_assoc f.magic] at hread

/-- The records behind the file header. -/
theorem drop_header : (f.fileHeader ignored linktype ++ rest).drop 24 = rest :=
  List.drop_left' (f.length_fileHeader ignored linktype)

end Format

/-- A file is read up to a rest that holds no whole record. -/
theorem PcapStream.reads_records (f : Format) (ignored : Octets 16) (linktype : UInt32)
    {records : List (Record f)} {tail : Bytes} (htail : tail = [] ∨ Broken f tail) {src : Source ε}
    (h : src.Delivers (f.fileHeader ignored linktype ++ (records.flatMap Record.bytes ++ tail)))
    (iface : UInt32) :
    ∃ s, new src iface = .ok s ∧
      s.packets.1 = records.filterMap (fun r => frameRecord linktype r.body r.tsNanos iface) ∧
      (s.packets.2 = none ↔ tail = []) := by
  have hsplit : Splits f (records.flatMap Record.bytes ++ tail) records tail := ⟨rfl, htail⟩
  rcases new_eq h iface with ⟨f', inner, -, hf', hinner, hnew⟩ | ⟨hbad, -⟩
  · rw [f.take_four_header, f.fileFormat_magic, Option.some.injEq] at hf'
    subst hf'
    rw [f.word_header, UInt32.ofNat_toNat] at hnew
    rw [f.drop_header] at hinner
    exact ⟨_, hnew, packets_splits ⟨inner, f.little, f.nanos, linktype, iface⟩ hinner hsplit⟩
  · -- the header is whole, and its magic number is known
    rw [f.take_four_header, f.fileFormat_magic] at hbad
    rw [List.length_append, f.length_fileHeader] at hbad
    rcases hbad with hshort | hnone
    · omega
    · cases hnone

/-- **A file is read back**, up to the record in which it is cut, if it is. -/
theorem PcapStream.reads_file {linktype : UInt32} (f : Format) (ignored : Octets 16)
    (items : List (Item linktype)) (last : Item linktype) {n : ℕ} (hn : n < (last.encode f).length)
    {src : Source ε} (h : src.Delivers (f.file ignored items ++ (last.encode f).take n))
    (iface : UInt32) :
    ∃ s, new src iface = .ok s ∧ s.packets.1 = f.packets iface items ∧
      (s.packets.2 = none ↔ n = 0) := by
  have hcut : (last.encode f).take n = [] ↔ n = 0 := by
    rw [List.take_eq_nil_iff]
    constructor
    · rintro (hzero | hnil)
      · exact hzero
      · rw [hnil] at hn
        exact absurd hn (Nat.not_lt_zero n)
    · exact Or.inl
  have hbytes : items.flatMap (Item.encode f)
      = (items.map (Item.record f)).flatMap Record.bytes := by
    rw [List.flatMap_map]
    rfl
  rw [Format.file, List.append_assoc, hbytes] at h
  obtain ⟨s, hnew, hpackets, hend⟩ :=
    reads_records f ignored linktype (last.rest_of_cut f hn) h iface
  refine ⟨s, hnew, ?_, hend.trans hcut⟩
  rw [hpackets, List.filterMap_map, Format.packets]
  apply List.filterMap_congr
  intro i _
  exact i.frameRecord_record f iface

/-! ## The agent on a file -/

/-- **Replaying a file.**  The agent's accounts are those of the engine's run on the packets in
the whole records, and the capture fails exactly if the file ends inside a record. -/
theorem Setup.replays {F : Type} [F64 F] [ToString ε] (s : Setup F ε) {linktype : UInt32}
    (f : Format) (ignored : Octets 16) (items : List (Item linktype)) (last : Item linktype)
    {n : ℕ} (hn : n < (last.encode f).length) {src : Source ε}
    (h : src.Delivers (f.file ignored items ++ (last.encode f).take n)) (iface : UInt32) :
    ∃ stream, PcapStream.new src iface = .ok stream ∧
      let cap := Capture.ofStream stream
      let pkts := f.packets iface items
      (cap.failure = none ↔ n = 0) ∧
      ({ s with capture := cap } : Setup F ε).agent.Accounts s.settings s.jsonTarget pkts
        ((Engine.new s.detect).events
          (pkts.map Call.process ++ [.sweep ((pkts.getLast?.map PacketMeta.tsNanos).getD 0)])) := by
  obtain ⟨stream, hnew, hpackets, hend⟩ := PcapStream.reads_file f ignored items last hn h iface
  refine ⟨stream, hnew, hend, ?_⟩
  have haccounts := Setup.accounts { s with capture := Capture.ofStream stream }
  rw [← hpackets]
  exact haccounts

namespace Sample

/-- A connection request as a raw IP packet. -/
def rawSyn : Frame where
  link := .raw
  ip := .v4 ⟨⟨[10, 0, 2, 1], rfl⟩, ⟨[10, 0, 2, 2], rfl⟩, 64, 0, 0, true, 0, [], rfl, by decide⟩
  transport := .tcp
    ⟨5002, 80, 100, 0, ⟨0, Nat.zero_lt_succ 15⟩, TcpFlags.SYN, 64240, 0, 0, [], rfl, by decide⟩
  payload := []
  padding := []
  fits := by decide

/-- The packet in a record of a raw IP file, at 7 s. -/
def synItem : Item DLT_RAW where
  stamp := ⟨7, 0, 40⟩
  content := .frame rawSyn rfl
  fits := by decide

/-- Version 2.4, and a snapshot length of 65535 bytes. -/
def fileVersion : Octets 16 := ⟨[0, 2, 0, 4, 0, 0, 0, 0, 0, 0, 0, 0, 0, 0, 255, 255], rfl⟩

/-- A nanosecond big-endian file with the packet, cut 20 bytes into a second record. -/
def cutFile : Bytes :=
  Format.file ⟨false, true⟩ fileVersion [synItem]
    ++ (synItem.encode ⟨false, true⟩).take 20

/-- It arrives in two pieces. -/
def cutFileSource : Source Unit :=
  [.chunk (cutFile.take 30) (by decide), .interrupted, .chunk (cutFile.drop 30) (by decide)]

end Sample

/-- The agent sees the first packet, and a failure. -/
theorem Setup.replays_cut :
    ∃ stream, PcapStream.new Sample.cutFileSource 0 = .ok stream ∧
      (Capture.ofStream stream).failure ≠ none ∧
      (Setup.agent (F := ℚ) ⟨⟨none, true⟩, DetectConfig.default ℚ, .off,
        Capture.ofStream stream⟩).packets = 1 := by
  have hsource : Sample.cutFileSource.Delivers Sample.cutFile :=
    ⟨by simp [Sample.cutFileSource, Source.bytes], by simp [Sample.cutFileSource]⟩
  obtain ⟨stream, hnew, hfailure, haccounts⟩ :=
    Setup.replays ⟨⟨none, true⟩, DetectConfig.default ℚ, .off, ⟨[], none⟩⟩ ⟨false, true⟩
      Sample.fileVersion [Sample.synItem] Sample.synItem (n := 20) (by decide) hsource 0
  refine ⟨stream, hnew, ?_, ?_⟩
  · rw [Ne, hfailure]
    decide
  · exact haccounts.packets.trans rfl
