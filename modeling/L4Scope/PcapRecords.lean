/-
# What a pcap stream holds

The classic pcap format on its own terms: a 24-byte file header whose first four bytes fix
byte order and time unit (`fileFormat`), then records, each a 16-byte header and the bytes it
announces (`Record`), then whatever is left when no whole record is (`Splits`).

`PcapStream.decodes_records` says that the reader sees exactly this, however the bytes
arrive: it opens the streams that have such a header, yields the packets of the records in
order, and ends cleanly when nothing is left and with an error otherwise.
-/
import L4Scope.PcapStream

variable {ε : Type}

/-- Four bytes in either order spell a number of 32 bits. -/
theorem beNat_order_lt (b : Octets 4) (little : Bool) :
    beNat (if little then b.1.reverse else b.1) < 2 ^ 32 := by
  have hlen : (if little then b.1.reverse else b.1).length = 4 := by
    split
    · rw [List.length_reverse, b.2]
    · exact b.2
  have hlt := beNat_lt (if little then b.1.reverse else b.1)
  rwa [hlen] at hlt

/-! ## The format -/

/-- Byte order and time unit of a file. -/
structure Format where
  little : Bool
  nanos : Bool
  deriving DecidableEq

/-- The formats by the first four bytes of the file. -/
def fileFormat (magic : Bytes) : Option Format :=
  if magic = [0xd4, 0xc3, 0xb2, 0xa1] then some ⟨true, false⟩
  else if magic = [0xa1, 0xb2, 0xc3, 0xd4] then some ⟨false, false⟩
  else if magic = [0x4d, 0x3c, 0xb2, 0xa1] then some ⟨true, true⟩
  else if magic = [0xa1, 0xb2, 0x3c, 0x4d] then some ⟨false, true⟩
  else none

namespace Format

/-- The header word at an offset. -/
def word (f : Format) (b : Bytes) (off : ℕ) : ℕ :=
  beNat (if f.little then (octetsAt 4 b off).1.reverse else (octetsAt 4 b off).1)

/-- A word is below 2^32. -/
theorem word_lt (f : Format) (b : Bytes) (off : ℕ) : f.word b off < 2 ^ 32 :=
  beNat_order_lt (octetsAt 4 b off) f.little

end Format

/-- The longest body a record may announce. -/
def MAX_RECORD : ℕ := 262144

/-- A complete record. -/
structure Record (f : Format) where
  head : Octets 16
  body : Bytes
  length_body : body.length = f.word head.1 8
  length_le : body.length ≤ MAX_RECORD

namespace Record

variable {f : Format}

/-- The bytes of a record. -/
def bytes (r : Record f) : Bytes := r.head.1 ++ r.body

/-- Nanoseconds since the epoch. -/
def tsNanos (r : Record f) : ℕ :=
  f.word r.head.1 0 * 10 ^ 9 + f.word r.head.1 4 * (if f.nanos then 1 else 1000)

end Record

/-- Bytes left over that hold no whole record: a cut header, an announced length that is out
of range, or a cut body. -/
def Broken (f : Format) (tail : Bytes) : Prop :=
  tail ≠ [] ∧
    (tail.length < 16 ∨ MAX_RECORD < f.word tail 8 ∨ tail.length < 16 + f.word tail 8)

/-- A byte string as records and a rest that holds no whole record. -/
structure Splits (f : Format) (bs : Bytes) (recs : List (Record f)) (tail : Bytes) : Prop where
  bytes_eq : bs = recs.flatMap Record.bytes ++ tail
  rest : tail = [] ∨ Broken f tail

/-- Every byte string splits. -/
theorem exists_splits (f : Format) (bs : Bytes) : ∃ recs tail, Splits f bs recs tail := by
  induction hn : bs.length using Nat.strong_induction_on generalizing bs with
  | _ n ih =>
      by_cases hrest : bs = [] ∨ Broken f bs
      · exact ⟨[], bs, by simp, hrest⟩
      · simp only [Broken, not_or, not_and, not_lt] at hrest
        obtain ⟨hne, hwhole⟩ := hrest
        obtain ⟨h16, hmax, hlen⟩ := hwhole hne
        -- the first record, then the rest by induction
        have hhead : (bs.take 16).length = 16 := List.length_take_of_le h16
        have hword : f.word (bs.take 16) 8 = f.word bs 8 := by
          rw [Format.word, octetsAt_take bs (by omega), ← Format.word]
        have hbody : ((bs.drop 16).take (f.word bs 8)).length = f.word bs 8 := by
          rw [List.length_take, List.length_drop]
          omega
        let r : Record f := ⟨⟨bs.take 16, hhead⟩, (bs.drop 16).take (f.word bs 8),
          by rw [hbody, hword], by rw [hbody]; exact hmax⟩
        obtain ⟨recs, tail, hsplit⟩ := ih _ (by rw [← hn, List.length_drop]; omega)
          (bs.drop (16 + f.word bs 8)) rfl
        refine ⟨r :: recs, tail, ?_, hsplit.rest⟩
        rw [List.flatMap_cons, List.append_assoc, ← hsplit.bytes_eq]
        show bs = (bs.take 16 ++ (bs.drop 16).take (f.word bs 8)) ++ bs.drop (16 + f.word bs 8)
        rw [List.append_assoc, ← List.drop_drop, List.take_append_drop, List.take_append_drop]

/-! ## Header words -/

/-- A word in either byte order. -/
theorem toNat_readU32 (b : Octets 4) (little : Bool) :
    (readU32 b little).toNat = beNat (if little then b.1.reverse else b.1) :=
  UInt32.toNat_ofNat_of_lt' (beNat_order_lt b little)

/-- Different bytes are different words. -/
theorem readU32_injective {a b : Octets 4} (h : readU32 a true = readU32 b true) : a = b := by
  have hnat := congrArg UInt32.toNat h
  rw [toNat_readU32, toNat_readU32, if_pos rfl, if_pos rfl] at hnat
  have hrev := beNat_inj (by rw [List.length_reverse, List.length_reverse, a.2, b.2]) hnat
  exact Subtype.ext (List.reverse_injective hrev)

/-- The magic number is read off the first four bytes. -/
theorem ofMagic_readU32 (b : Octets 4) :
    PcapStream.ofMagic (readU32 b true) = (fileFormat b.1).map fun f => (f.little, f.nanos) := by
  have hiff : ∀ m : Octets 4, readU32 b true = readU32 m true ↔ b.1 = m.1 := by
    intro m
    constructor
    · intro h
      rw [readU32_injective h]
    · intro h
      rw [Subtype.ext h]
  have hus : MAGIC_US_LE = readU32 ⟨[0xd4, 0xc3, 0xb2, 0xa1], rfl⟩ true := rfl
  have husBe : MAGIC_US_BE = readU32 ⟨[0xa1, 0xb2, 0xc3, 0xd4], rfl⟩ true := rfl
  have hns : MAGIC_NS_LE = readU32 ⟨[0x4d, 0x3c, 0xb2, 0xa1], rfl⟩ true := rfl
  have hnsBe : MAGIC_NS_BE = readU32 ⟨[0xa1, 0xb2, 0x3c, 0x4d], rfl⟩ true := rfl
  simp only [PcapStream.ofMagic, fileFormat, hus, husBe, hns, hnsBe, hiff]
  split_ifs <;> rfl

/-! ## Reading records -/

namespace PcapStream

/-- The format the stream was opened with. -/
def format (s : PcapStream ε) : Format := ⟨s.little, s.nanos⟩

/-- Enough bytes. -/
theorem readFull_of_le {n : ℕ} {src : Source ε} {bs : Bytes} (h : src.Delivers bs)
    (hn : n ≤ bs.length) :
    ∃ src', readFull n src = (.ok (bs.take n), src') ∧ src'.Delivers (bs.drop n) := by
  obtain ⟨src', hfill, hsrc'⟩ := Source.fill_full h hn
  refine ⟨src', ?_, hsrc'⟩
  rw [readFull, hfill]

/-- Too few. -/
theorem readFull_of_lt {n : ℕ} {src : Source ε} {bs : Bytes} (h : src.Delivers bs)
    (hn : bs.length < n) :
    ∃ src', readFull n src = (.error (.parse "unexpected end of pcap stream"), src') := by
  obtain ⟨src', hfill⟩ := Source.fill_ended h hn
  exact ⟨src', by rw [readFull, hfill]⟩

/-- Enough bytes. -/
theorem readFullOpt_of_le {n : ℕ} {src : Source ε} {bs : Bytes} (h : src.Delivers bs)
    (hn : n ≤ bs.length) :
    ∃ src', readFullOpt n src = (.ok (some (bs.take n)), src') ∧ src'.Delivers (bs.drop n) := by
  obtain ⟨src', hfill, hsrc'⟩ := Source.fill_full h hn
  refine ⟨src', ?_, hsrc'⟩
  rw [readFullOpt, hfill]

/-- Too few: the end, or a cut header. -/
theorem readFullOpt_of_lt {n : ℕ} {src : Source ε} {bs : Bytes} (h : src.Delivers bs)
    (hn : bs.length < n) :
    ∃ src', readFullOpt n src
      = (if bs = [] then .ok none else .error (.parse "truncated pcap record header"), src') := by
  obtain ⟨src', hfill⟩ := Source.fill_ended h hn
  refine ⟨src', ?_⟩
  rw [readFullOpt, hfill]
  cases bs with
  | nil => rfl
  | cons b bs => rfl

/-- The header words of a record, read off its first 16 bytes. -/
theorem toNat_readU32_word (s : PcapStream ε) (b : Bytes) (off : ℕ) :
    (readU32 (octetsAt 4 b off) s.little).toNat = s.format.word b off := by
  rw [toNat_readU32, Format.word]
  rfl

/-- The clock of a record is far from the end of 64 bits. -/
theorem tsNanos_eq {f : Format} (r : Record f) :
    saturatingAdd (saturatingMul (f.word r.head.1 0) 1000000000)
      (if f.nanos then f.word r.head.1 4 else f.word r.head.1 4 * 1000) = r.tsNanos := by
  have hsec := f.word_lt r.head.1 0
  have hfrac := f.word_lt r.head.1 4
  rw [saturatingMul, saturatingAdd, Record.tsNanos]
  split <;> omega

/-- What `nextPacket` makes of its two reads. -/
theorem nextPacket_eq (s : PcapStream ε) :
    s.nextPacket =
      match readFullOpt 16 s.inner with
      | (.error e, inner) => (.error e, { s with inner })
      | (.ok none, inner) => (.ok none, { s with inner })
      | (.ok (some rec), inner) =>
        if MAX_RECORD < s.format.word rec 8 then
          (.error (.parse s!"implausible record length {s.format.word rec 8}"), { s with inner })
        else
          match readFull (s.format.word rec 8) inner with
          | (.error e, inner) => (.error e, { s with inner })
          | (.ok buf, inner) =>
            let tsNanos := saturatingAdd (saturatingMul (s.format.word rec 0) 1000000000)
              (if s.nanos then s.format.word rec 4 else s.format.word rec 4 * 1000)
            match frameRecord s.linktype buf tsNanos s.iface with
            | some pkt => (.ok (some pkt), { s with inner })
            | none => nextPacket { s with inner } := by
  rw [nextPacket]
  simp only [toNat_readU32_word]
  split
  case h_1 e inner hrec => simp only [hrec]
  case h_2 inner hrec => simp only [hrec]
  case h_3 rec inner hrec =>
    -- a whole record header: its length field decides
    simp only [hrec]
    split
    case isTrue hlen =>
      rw [if_pos (show MAX_RECORD < s.format.word rec 8 from hlen)]
    case isFalse hlen =>
      rw [if_neg (show ¬ MAX_RECORD < s.format.word rec 8 from hlen)]
      split
      case h_1 e inner' hbuf =>
        rw [toNat_readU32_word] at hbuf
        simp only [hbuf]
      case h_2 buf inner' hbuf =>
        rw [toNat_readU32_word] at hbuf
        cases hframe : frameRecord s.linktype buf _ s.iface <;> simp only [hbuf, hframe]

/-- A whole record is read, and its packet is the next one if it holds one. -/
theorem nextPacket_record (s : PcapStream ε) (r : Record s.format) {rest : Bytes}
    (h : s.inner.Delivers (r.bytes ++ rest)) :
    ∃ inner, inner.Delivers rest ∧
      s.nextPacket =
        match frameRecord s.linktype r.body r.tsNanos s.iface with
        | some pkt => (.ok (some pkt), { s with inner })
        | none => nextPacket { s with inner } := by
  have h16 := r.head.2
  rw [Record.bytes, List.append_assoc] at h
  obtain ⟨src, hhead, hsrc⟩ := readFullOpt_of_le (n := 16) h (by rw [List.length_append]; omega)
  rw [List.take_left' h16] at hhead
  rw [List.drop_left' h16] at hsrc
  have hlen := r.length_body
  obtain ⟨inner, hbody, hinner⟩ := readFull_of_le (n := s.format.word r.head.1 8) hsrc
    (by rw [List.length_append]; omega)
  rw [List.take_left' hlen] at hbody
  rw [List.drop_left' hlen] at hinner
  have hmax : ¬ MAX_RECORD < s.format.word r.head.1 8 := by
    rw [← hlen]
    exact Nat.not_lt.2 r.length_le
  refine ⟨inner, hinner, ?_⟩
  rw [nextPacket_eq]
  simp only [hhead, hbody, if_neg hmax]
  rw [← tsNanos_eq r]
  rfl

/-- With no whole record left the stream stops: cleanly if nothing is left, and else with the
error that says what was cut or out of range. -/
theorem nextPacket_tail (s : PcapStream ε) {tail : Bytes} (h : s.inner.Delivers tail)
    (hrest : tail = [] ∨ Broken s.format tail) :
    s.nextPacket.1 =
      if tail = [] then .ok none
      else if tail.length < 16 then .error (.parse "truncated pcap record header")
      else if MAX_RECORD < s.format.word tail 8 then
        .error (.parse s!"implausible record length {s.format.word tail 8}")
      else .error (.parse "unexpected end of pcap stream") := by
  by_cases h16 : tail.length < 16
  · obtain ⟨src, hhead⟩ := readFullOpt_of_lt h h16
    rw [nextPacket_eq, hhead]
    by_cases hnil : tail = []
    · rw [if_pos hnil, if_pos hnil]
    · rw [if_neg hnil, if_neg hnil, if_pos h16]
  · obtain ⟨src, hhead, hsrc⟩ := readFullOpt_of_le h (Nat.not_lt.1 h16)
    have hnil : tail ≠ [] := by
      rintro rfl
      simp at h16
    have hword : s.format.word (tail.take 16) 8 = s.format.word tail 8 := by
      rw [Format.word, octetsAt_take tail (by omega), ← Format.word]
    rw [nextPacket_eq, if_neg hnil, if_neg h16]
    simp only [hhead, hword]
    by_cases hmax : MAX_RECORD < s.format.word tail 8
    · rw [if_pos hmax, if_pos hmax]
    · rw [if_neg hmax, if_neg hmax]
      -- only a cut body is left
      have hcut : (tail.drop 16).length < s.format.word tail 8 := by
        rcases hrest with hempty | ⟨_, hshort | hlong | hcut⟩
        · exact absurd hempty hnil
        · exact absurd hshort h16
        · exact absurd hlong hmax
        · rw [List.length_drop]
          omega
      obtain ⟨src', hbody⟩ := readFull_of_lt hsrc hcut
      rw [hbody]

/-- The first packet, and the others. -/
theorem packets_eq (s : PcapStream ε) :
    s.packets =
      match s.nextPacket with
      | (.ok (some pkt), s') => (pkt :: s'.packets.1, s'.packets.2)
      | (.ok none, _) => ([], none)
      | (.error e, _) => ([], some e) := by
  rw [packets]
  split
  case h_1 pkt s' hnext => simp only [hnext]
  case h_2 s' hnext => simp only [hnext]
  case h_3 e s' hnext => simp only [hnext]

/-- At the end. -/
theorem packets_of_end {s : PcapStream ε} (h : s.nextPacket.1 = .ok none) :
    s.packets = ([], none) := by
  rw [packets_eq]
  rcases hnext : s.nextPacket with ⟨r, s'⟩
  rw [hnext] at h
  simp only at h
  rw [h]

/-- At an error. -/
theorem packets_of_error {s : PcapStream ε} {e : Error ε} (h : s.nextPacket.1 = .error e) :
    s.packets = ([], some e) := by
  rw [packets_eq]
  rcases hnext : s.nextPacket with ⟨r, s'⟩
  rw [hnext] at h
  simp only at h
  rw [h]

/-- One record contributes its packet, if it holds one. -/
theorem packets_record (s : PcapStream ε) (r : Record s.format) {rest : Bytes}
    (h : s.inner.Delivers (r.bytes ++ rest)) :
    ∃ inner, inner.Delivers rest ∧
      s.packets.1 = (frameRecord s.linktype r.body r.tsNanos s.iface).toList ++
        (packets { s with inner }).1 ∧
      s.packets.2 = (packets { s with inner }).2 := by
  obtain ⟨inner, hinner, hnext⟩ := nextPacket_record s r h
  refine ⟨inner, hinner, ?_⟩
  cases hpkt : frameRecord s.linktype r.body r.tsNanos s.iface with
  | some pkt =>
      rw [hpkt] at hnext
      rw [packets_eq, hnext]
      exact ⟨rfl, rfl⟩
  | none =>
      -- the record is skipped: the stream behind it yields the same packet
      rw [hpkt] at hnext
      have hsame : s.packets = packets { s with inner } := by
        rw [packets_eq, hnext, ← packets_eq]
      rw [hsame]
      exact ⟨rfl, rfl⟩

/-- The packets of a stream are those of its records, in order, and it ends with an error
exactly if something is left. -/
theorem packets_splits (s : PcapStream ε) {bs tail : Bytes} {recs : List (Record s.format)}
    {inner : Source ε} (h : inner.Delivers bs) (hsplit : Splits s.format bs recs tail) :
    (packets { s with inner }).1
        = recs.filterMap (fun r => frameRecord s.linktype r.body r.tsNanos s.iface) ∧
      ((packets { s with inner }).2 = none ↔ tail = []) := by
  induction recs generalizing inner bs with
  | nil =>
      have hbs : bs = tail := hsplit.bytes_eq
      subst hbs
      have hnext := nextPacket_tail { s with inner } h hsplit.rest
      by_cases hnil : bs = []
      · rw [if_pos hnil] at hnext
        rw [packets_of_end hnext]
        simp [hnil]
      · rw [if_neg hnil] at hnext
        obtain ⟨e, he⟩ : ∃ e, (nextPacket { s with inner }).1 = .error e := by
          split_ifs at hnext
          all_goals exact ⟨_, hnext⟩
        rw [packets_of_error he]
        simp [hnil]
  | cons r recs ih =>
      have hbs : bs = r.bytes ++ (recs.flatMap Record.bytes ++ tail) := by
        rw [hsplit.bytes_eq, List.flatMap_cons, List.append_assoc]
      rw [hbs] at h
      obtain ⟨inner', hinner', hpkts, hend⟩ := packets_record { s with inner } r h
      obtain ⟨hrest, hclean⟩ := ih hinner' ⟨rfl, hsplit.rest⟩
      constructor
      · rw [hpkts]
        show (frameRecord s.linktype r.body r.tsNanos s.iface).toList
          ++ (packets { s with inner := inner' }).1 = _
        rw [hrest, List.filterMap_cons]
        cases frameRecord s.linktype r.body r.tsNanos s.iface <;> rfl
      · rw [hend]
        exact hclean

/-! ## Opening -/

/-- Opening succeeds on a whole header with a known magic number, and reads the rest of the
header in the byte order it announces. -/
theorem new_eq {src : Source ε} {bs : Bytes} (h : src.Delivers bs) (iface : UInt32) :
    (∃ f inner, 24 ≤ bs.length ∧ fileFormat (bs.take 4) = some f ∧ inner.Delivers (bs.drop 24) ∧
      new src iface = .ok ⟨inner, f.little, f.nanos, .ofNat (f.word bs 20), iface⟩) ∨
    ((bs.length < 24 ∨ fileFormat (bs.take 4) = none) ∧ ∃ e, new src iface = .error e) := by
  by_cases h24 : bs.length < 24
  · right
    obtain ⟨src', hhdr⟩ := readFull_of_lt h h24
    refine ⟨Or.inl h24, .parse "unexpected end of pcap stream", ?_⟩
    rw [new, hhdr]
  · have hlen : 24 ≤ bs.length := Nat.not_lt.1 h24
    obtain ⟨inner, hhdr, hinner⟩ := readFull_of_le h hlen
    have hmagic : (octetsAt 4 (bs.take 24) 0).1 = bs.take 4 := by
      rw [octetsAt_take bs (by omega), octetsAt_zero (by omega)]
    have hof := ofMagic_readU32 (octetsAt 4 (bs.take 24) 0)
    rw [hmagic] at hof
    cases hf : fileFormat (bs.take 4) with
    | none =>
        right
        rw [hf, Option.map_none] at hof
        refine ⟨Or.inr rfl, ?_⟩
        rw [new, hhdr]
        simp only [hof]
        exact ⟨_, rfl⟩
    | some f =>
        left
        rw [hf, Option.map_some] at hof
        refine ⟨f, inner, hlen, rfl, hinner, ?_⟩
        rw [new, hhdr]
        simp only [hof, octetsAt_take bs (by omega : 20 + 4 ≤ 24)]
        rfl

/-- The link type a file header announces. -/
def linktypeOf (f : Format) (bs : Bytes) : UInt32 := .ofNat (f.word bs 20)

/-- The reader decodes exactly the records of a stream, however its bytes arrive. -/
theorem decodes_records {src : Source ε} {bs : Bytes} (h : src.Delivers bs) (iface : UInt32) :
    ((∃ s, new src iface = .ok s) ↔ 24 ≤ bs.length ∧ (fileFormat (bs.take 4)).isSome) ∧
    ∀ s, new src iface = .ok s →
      ∃ f, fileFormat (bs.take 4) = some f ∧
        (∃ recs tail, Splits f (bs.drop 24) recs tail) ∧
        ∀ recs tail, Splits f (bs.drop 24) recs tail →
          s.packets.1
            = recs.filterMap (fun r => frameRecord (linktypeOf f bs) r.body r.tsNanos iface) ∧
          (s.packets.2 = none ↔ tail = []) ∧
          (s.packets.2.isSome ↔ Broken f tail) := by
  rcases new_eq h iface with ⟨f, inner, hlen, hf, hinner, hnew⟩ | ⟨hbad, e, hnew⟩
  · rw [hnew, hf]
    constructor
    · simp [hlen]
    · intro s hs
      rw [Except.ok.injEq] at hs
      subst hs
      refine ⟨f, rfl, exists_splits f (bs.drop 24), ?_⟩
      intro recs tail hsplit
      obtain ⟨hpkts, hclean⟩ :=
        packets_splits ⟨inner, f.little, f.nanos, linktypeOf f bs, iface⟩ hinner hsplit
      refine ⟨hpkts, hclean, ?_⟩
      have hsome := not_congr hclean
      rw [← ne_eq, Option.ne_none_iff_isSome] at hsome
      refine hsome.trans ?_
      constructor
      · intro hne
        exact hsplit.rest.resolve_left hne
      · intro hbroken
        exact hbroken.1
  · rw [hnew]
    constructor
    · constructor
      · rintro ⟨s, hs⟩
        simp at hs
      · rintro ⟨hlen, hf⟩
        rcases hbad with hshort | hnone
        · omega
        · simp [hnone] at hf
    · intro s hs
      simp at hs

/-- A DNS query's UDP header behind an IPv4 header, captured whole at 7.000005 s. -/
def cutRecord : Record ⟨true, false⟩ where
  head := ⟨[7, 0, 0, 0, 5, 0, 0, 0, 28, 0, 0, 0, 28, 0, 0, 0], rfl⟩
  body := [0x45, 0, 0, 28, 0, 0, 0x40, 0, 64, 17, 0, 0, 10, 0, 0, 1, 10, 0, 0, 2, 0x13, 0x88, 0, 53,
    0, 8, 0, 0]
  length_body := by decide
  length_le := by decide

/-- A little-endian capture of raw packets that is cut three bytes into its second record. -/
def cutCapture : Bytes :=
  [0xd4, 0xc3, 0xb2, 0xa1, 2, 0, 4, 0, 0, 0, 0, 0, 0, 0, 0, 0, 0, 0, 1, 0, 101, 0, 0, 0]
    ++ cutRecord.bytes ++ [7, 0, 0]

/-- It arrives in two pieces with an interruption between them. -/
def cutSource : Source Unit :=
  [.chunk (cutCapture.take 10) (by decide), .interrupted,
    .chunk (cutCapture.drop 10) (by decide)]

/-- The query is decoded, and the reader ends with an error. -/
theorem decodes_records_cut :
    (∃ s, new cutSource 0 = .ok s) ∧
      ∀ s, new cutSource 0 = .ok s →
        s.packets.1.map (fun m => (m.tsNanos, m.proto)) = [(7000005000, .udp)] ∧
          s.packets.2.isSome := by
  have h : cutSource.Delivers cutCapture := ⟨by decide, by simp [cutSource]⟩
  constructor
  · exact (decodes_records h 0).1.2 ⟨by decide, by decide⟩
  · intro s hs
    obtain ⟨f, hf, _, hall⟩ := (decodes_records h 0).2 s hs
    obtain rfl : ⟨true, false⟩ = f := Option.some.inj hf
    have hbroken : Broken ⟨true, false⟩ [7, 0, 0] := ⟨by simp, Or.inl (by decide)⟩
    obtain ⟨hpkts, _, hend⟩ := hall [cutRecord] [7, 0, 0] ⟨rfl, Or.inr hbroken⟩
    rw [hpkts]
    exact ⟨by decide, hend.2 hbroken⟩

end PcapStream
