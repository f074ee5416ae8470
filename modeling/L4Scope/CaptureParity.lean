/-
# Parity of the capture backends

Every backend is to give the engine the same input.  Here the same traffic is captured twice: it is
written to a capture file that the agent replays, and it passes the eBPF classifier.  An eBPF
capture has no clean end, userspace waits for more; so the agents are compared at the packets that
userspace has got so far.  Whatever the byte order and the time unit of the file, however its bytes
arrive, and however the classifier and userspace take turns, these are the first packets of the
file, and both agents show the same after each of them (`Setup.parity`).
-/
import L4Scope.AgentRuns
import L4Scope.BackendParity
import L4Scope.EbpfRing
import L4Scope.Replay

open Outcome

/-! ## One frame -/

/-- A frame on which the two decoders agree: it has no VLAN tag and no IPv6 extension header, its
header lengths are no shorter than the headers, and its IP length does not exceed the bytes
present. -/
structure PlainFrame (data : Bytes) : Prop where
  untagged : ¬ IsTag (etherType data)
  noExtension : etherType data = ETH_P_IPV6 → ¬ IsExtension (etherIp data).proto
  sound : EbpfSource.SoundLengths data
  present : LengthPresent (etherType data) (etherBody data)

/-- What is behind a link header that announces neither IP version is not decoded. -/
theorem parseFrame_of_not_isIp {linktype : UInt32} {data l3 : Bytes} {et : UInt16}
    (hlink : stripLink linktype data = value (et, l3)) (hip : ¬ IsIp et) (tsNanos : ℕ)
    (iface : UInt32) : parseFrame linktype data tsNanos iface = reject := by
  rw [IsIp, not_or] at hip
  rw [parseFrame_of_stripLink hlink, if_neg hip.1, if_neg hip.2]

/-- A frame that the parser rejects has no record. -/
theorem frameRecord_of_reject {linktype : UInt32} {data : Bytes} {tsNanos : ℕ} {iface : UInt32}
    (h : parseFrame linktype data tsNanos iface = reject) :
    frameRecord linktype data tsNanos iface = none := by
  have hread (x : Outcome PacketMeta) (hx : x ≠ panic) (hr : x = reject) :
      x.toOption hx = none := by
    subst hr
    rfl
  exact hread _ (parseFrame_ne_panic linktype data tsNanos iface) h

/-- A header of the transport that the classifier finds is decoded behind a valid IP header. -/
theorem HoldsIp.headerOk {data : Bytes} (hholds : HoldsIp data)
    (hmin : minHeaderLen (etherType data) ≤ (etherIp data).len)
    (hl4 : 0 < (etherL4 data).length) : HeaderOk (etherType data) (etherBody data) := by
  rw [etherL4, length_l4Of] at hl4
  exact ⟨hholds.2.1, hholds.2.2, hmin, by omega⟩

namespace PlainFrame

variable {data : Bytes} (h : PlainFrame data)
include h

/-- The link header, if the frame is long enough for one. -/
theorem stripLink_eq (h14 : 14 ≤ data.length) :
    stripLink DLT_EN10MB data = value (etherType data, etherBody data) := by
  have htag : ¬ IsTag (be16At data 12) := h.untagged
  rw [stripLink_ethernet, if_neg (by omega), if_pos htag]
  rfl

/-- **The decoders on a frame**: they give the same record but for the interface, or none. -/
theorem frameRecord_eq (src : EbpfSource) {bpf : BpfHelpers} (hres : bpf.reserved = true)
    (ifindex iface : UInt32) :
    frameRecord DLT_EN10MB data (src.wallTime bpf) iface
      = (src.record bpf ⟨data, ifindex⟩).map fun m => { m with iface } := by
  have hnone (hreject : parseFrame DLT_EN10MB data (src.wallTime bpf) iface = reject)
      (hrecord : src.record bpf ⟨data, ifindex⟩ = none) :
      frameRecord DLT_EN10MB data (src.wallTime bpf) iface
        = (src.record bpf ⟨data, ifindex⟩).map fun m => { m with iface } := by
    rw [frameRecord_of_reject hreject, hrecord, Option.map_none]
  by_cases h14 : 14 ≤ data.length
  swap
  · refine hnone ?_ (src.record_of_not_holdsIp fun hholds => h14 hholds.1)
    rw [parseFrame, stripLink_ethernet, if_pos (by omega)]
    rfl
  have hlink := h.stripLink_eq h14
  by_cases hip : IsIp (etherType data)
  swap
  · exact hnone (parseFrame_of_not_isIp hlink hip _ _)
      (src.record_of_not_holdsIp fun hholds => hip hholds.2.1)
  by_cases htcp : (etherIp data).proto = IPPROTO_TCP
  · have hparse := parseFrame_tcp hlink (src.wallTime bpf) iface htcp
    have hrecord := @EbpfSource.record_tcp src bpf ⟨data, ifindex⟩ hres htcp
    by_cases hfits : HoldsIp data ∧ 20 ≤ (etherL4 data).length
    · obtain ⟨hmin, hdoff⟩ := (h.sound hfits.1).1 htcp hfits.2
      have hok := hfits.1.headerOk hmin (by omega)
      have hlen := h.present.payload_le hok
      rw [if_pos ⟨hok, hfits.2, hdoff⟩, min_eq_left hlen] at hparse
      rw [if_pos hfits] at hrecord
      rw [frameRecord_of_value hparse, hrecord]
      rfl
    · rw [if_neg fun hall => hfits ⟨⟨h14, hall.1.1, hall.1.2.1⟩, hall.2.1⟩] at hparse
      rw [if_neg hfits] at hrecord
      exact hnone hparse hrecord
  by_cases hudp : (etherIp data).proto = IPPROTO_UDP
  · have hparse := parseFrame_udp hlink (src.wallTime bpf) iface hudp
    have hrecord := @EbpfSource.record_udp src bpf ⟨data, ifindex⟩ hres hudp
    by_cases hfits : HoldsIp data ∧ 8 ≤ (etherL4 data).length
    · have hmin := (h.sound hfits.1).2 hudp hfits.2
      have hok := hfits.1.headerOk hmin (by omega)
      rw [if_pos ⟨hok, hfits.2⟩] at hparse
      rw [if_pos hfits] at hrecord
      rw [frameRecord_of_value hparse, hrecord]
      rfl
    · rw [if_neg fun hall => hfits ⟨⟨h14, hall.1.1, hall.1.2.1⟩, hall.2⟩] at hparse
      rw [if_neg hfits] at hrecord
      exact hnone hparse hrecord
  · exact hnone (parseFrame_other hlink _ _ htcp hudp h.noExtension) (src.record_other htcp hudp)

end PlainFrame

/-! ## A capture -/

/-- A frame as the two backends come by it: its bytes and the time in the file, the interface and
what the helpers of the classifier give. -/
structure Sighting where
  data : Bytes
  fits : data.length ≤ MAX_RECORD
  stamp : Stamp
  ifindex : UInt32
  bpf : BpfHelpers

namespace Sighting

/-- The frame in a file. -/
def record (f : Format) (x : Sighting) : Record f := x.stamp.record f x.data x.fits

/-- The frame at the classifier. -/
def passing (x : Sighting) : BpfHelpers × SkBuff := (x.bpf, ⟨x.data, x.ifindex⟩)

/-- The decoders agree on the frame, its record finds room in the ring buffer, and the file has it
at the time of the classifier's clock. -/
structure Agrees (src : EbpfSource) (f : Format) (x : Sighting) : Prop where
  plain : PlainFrame x.data
  reserved : x.bpf.reserved = true
  clock : x.bpf.ktimeNs < 2 ^ 64
  time : src.wallTime x.bpf = x.stamp.tsNanos f

/-- The record is the same on both ways. -/
theorem Agrees.frameRecord_eq {src : EbpfSource} {f : Format} {x : Sighting} (h : x.Agrees src f)
    (iface : UInt32) :
    frameRecord DLT_EN10MB (x.record f).body (x.record f).tsNanos iface
      = (src.record x.passing.1 x.passing.2).map fun m => { m with iface } := by
  have htime : (x.record f).tsNanos = src.wallTime x.bpf := by
    rw [record, Stamp.tsNanos_record, h.time]
  rw [htime]
  exact h.plain.frameRecord_eq src h.reserved x.ifindex iface

/-- The packets of the file are those of the ring buffer but for the interface. -/
theorem filterMap_frameRecord {src : EbpfSource} {f : Format} {traffic : List Sighting}
    (h : ∀ x ∈ traffic, x.Agrees src f) (iface : UInt32) :
    (traffic.map (record f)).filterMap (fun r => frameRecord DLT_EN10MB r.body r.tsNanos iface)
      = ((traffic.map passing).filterMap fun x => src.record x.1 x.2).map
          fun m => { m with iface } := by
  rw [List.filterMap_map, List.filterMap_map, List.map_filterMap]
  apply List.filterMap_congr
  intro x hx
  exact (h x hx).frameRecord_eq iface

end Sighting

section Agent

variable {F ε : Type} [F64 F]

/-- Neither the agent nor the engine looks at the interface. -/
theorem Agent.hashLoop_iface {o : Settings} {a : Agent F} {pkts : List PacketMeta}
    {as : List (Agent F)} (iface : UInt32)
    (h : HashLoop o a (pkts.map fun m => { m with iface }) as) : HashLoop o a pkts as := by
  induction pkts generalizing a as with
  | nil => exact h
  | cons pkt pkts ih =>
      cases h with
      | cons hp hloop =>
          obtain ⟨ht⟩ := hp
          exact HashLoop.cons (Engine.Processes.mk ht) (ih hloop)

/-- **Parity of the backends.**  Some traffic is written to a file, and passes the classifier up to
some packet.  At any moment of userspace, the packets it has got are the first packets of the file
but for the interface, all of them once the whole traffic has passed and the buffer is empty; and
the agent around them is, after each packet, the agent that replays the file, with the same tables
and the same reports up to the order of the events of one call. -/
theorem Setup.parity (o : Settings) (detect : DetectConfig F) (target : JsonTarget)
    (ebpf : EbpfSource) (little : Bool) (f : Format) (ignored : Octets 16)
    {traffic : List Sighting} (hagrees : ∀ x ∈ traffic, x.Agrees ebpf f) {src : Source ε}
    (hfile : src.Delivers (f.fileHeader ignored DLT_EN10MB
      ++ traffic.flatMap fun x => (x.record f).bytes)) (iface : UInt32)
    {steps : List (EbpfStep ε)}
    (hsteps : steps.filterMap EbpfStep.packet? <+: traffic.map Sighting.passing) :
    let ring := (EbpfRing.machine ebpf little).after .empty steps
    ∃ stream, PcapStream.new src iface = .ok stream ∧
      (ring.yielded.map fun m => { m with iface })
        = stream.packets.1.take ring.yielded.length ∧
      (steps.filterMap EbpfStep.packet? = traffic.map Sighting.passing → ring.items = [] →
        stream.packets = (ring.yielded.map fun m => { m with iface }, none)) ∧
      ∀ as as' : List (Agent F), Agent.HashLoop o (.new detect target) ring.yielded as →
        Agent.HashLoop o (.new detect target) stream.packets.1 as' →
        List.Forall₂ (fun b b' : Agent F => b.engine.SameTables b'.engine ∧ b.SameReport id b')
          as (as'.take ring.yielded.length) := by
  intro ring
  have hclock : ∀ x ∈ steps.filterMap EbpfStep.packet?, x.1.ktimeNs < 2 ^ 64 := by
    intro x hx
    obtain ⟨y, hy, rfl⟩ := List.mem_map.1 (hsteps.subset hx)
    exact (hagrees y hy).clock
  -- what the ring has delivered, and what the whole traffic gives
  have hring : ring.yielded ++ ring.items.filterMap (ebpf.readItem little)
      = (steps.filterMap EbpfStep.packet?).filterMap fun x => ebpf.record x.1 x.2 :=
    (EbpfSource.ring_delivers ebpf little hclock).1
  let all := (traffic.map Sighting.passing).filterMap fun x => ebpf.record x.1 x.2
  have hprefix : ring.yielded <+: all :=
    (List.prefix_append _ _).trans (hring ▸ hsteps.filterMap _)
  -- what the file holds
  have hbytes : (traffic.flatMap fun x => (x.record f).bytes)
      = (traffic.map (Sighting.record f)).flatMap Record.bytes ++ [] := by
    rw [List.append_nil, List.flatMap_map]
  rw [hbytes] at hfile
  obtain ⟨stream, hnew, hpackets, hend⟩ :=
    PcapStream.reads_records f ignored DLT_EN10MB (Or.inl rfl) hfile iface
  rw [Sighting.filterMap_frameRecord hagrees] at hpackets
  have htake : (ring.yielded.map fun m => { m with iface })
      = stream.packets.1.take ring.yielded.length := by
    rw [hpackets, ← List.map_take, ← List.prefix_iff_eq_take.1 hprefix]
  refine ⟨stream, hnew, htake, ?_, ?_⟩
  · intro hwhole hempty
    rw [hempty, List.filterMap_nil, List.append_nil, hwhole] at hring
    rw [hring, ← hpackets, ← hend.2 rfl]
  · intro as as' hloop hloop'
    have hfirst := hloop'.take ring.yielded.length
    rw [← htake] at hfirst
    refine Engine.matching_sameTables.hashLoop (Engine.SameTables.refl _)
      (Agent.SameReport.new detect detect target) (fun _ _ => trivial) hloop ?_
    rw [List.map_id]
    exact Agent.hashLoop_iface iface hfirst

end Agent

namespace Sample

/-- A data segment, captured at 107 ns. -/
def sighting : Sighting where
  data := frame 0x50 1000 5
  fits := by decide
  stamp := ⟨0, 107, 0⟩
  ifindex := 3
  bpf := ⟨7, true⟩

/-- The next one, captured at 109 ns. -/
def sightingNext : Sighting where
  data := frame 0x50 1005 5
  fits := by decide
  stamp := ⟨0, 109, 0⟩
  ifindex := 3
  bpf := ⟨9, true⟩

/-- A nanosecond big-endian file with both segments, which arrives in two pieces. -/
def sightingFile : Bytes :=
  Format.fileHeader ⟨false, true⟩ fileVersion DLT_EN10MB
    ++ [sighting, sightingNext].flatMap fun x => (x.record ⟨false, true⟩).bytes

/-- It arrives in two pieces. -/
def sightingSource : Source Unit :=
  [.chunk (sightingFile.take 30) (by decide), .chunk (sightingFile.drop 30) (by decide)]

end Sample

/-- Userspace comes too early once, and the second segment has not passed yet: the first packet of
the file is there, and the agents show the same after it. -/
theorem Setup.parity_segment :
    let ring := (EbpfRing.machine ⟨100⟩ true).after (.empty : EbpfRing Unit)
      [.next none, .packet ⟨7, true⟩ ⟨Sample.frame 0x50 1000 5, 3⟩, .next none]
    let start := Agent.new (DetectConfig.default ℚ) .off
    ring.yielded.map PacketMeta.seq = [1000] ∧
    ∃ stream as as', PcapStream.new Sample.sightingSource 0 = .ok stream ∧
      (ring.yielded.map fun m => { m with iface := 0 }) = stream.packets.1.take 1 ∧
      Agent.HashLoop ⟨none, true⟩ start ring.yielded as ∧
      Agent.HashLoop ⟨none, true⟩ start stream.packets.1 as' ∧
      List.Forall₂ (fun b b' : Agent ℚ => b.engine.SameTables b'.engine ∧ b.SameReport id b')
        as (as'.take 1) := by
  intro ring start
  have hsource : Sample.sightingSource.Delivers Sample.sightingFile :=
    ⟨by simp [Sample.sightingSource, Source.bytes], by simp [Sample.sightingSource]⟩
  have hagrees : ∀ x ∈ [Sample.sighting, Sample.sightingNext], x.Agrees ⟨100⟩ ⟨false, true⟩ := by
    simp only [List.forall_mem_cons]
    exact ⟨⟨⟨by decide, by decide, by decide, by decide⟩, rfl, by decide, by decide⟩,
      ⟨⟨by decide, by decide, by decide, by decide⟩, rfl, by decide, by decide⟩, by simp⟩
  have hseqs : ring.yielded.map PacketMeta.seq = [1000] := by decide +kernel
  have hlen : ring.yielded.length = 1 := by
    rw [← List.length_map PacketMeta.seq, hseqs]
    rfl
  have hpassed :
      ([.next none, .packet ⟨7, true⟩ ⟨Sample.frame 0x50 1000 5, 3⟩, .next none]
          : List (EbpfStep Unit)).filterMap EbpfStep.packet?
        <+: [Sample.sighting, Sample.sightingNext].map Sighting.passing :=
    ⟨[Sample.sightingNext.passing], rfl⟩
  obtain ⟨stream, hnew, htake, -, hsame⟩ := Setup.parity ⟨none, true⟩ (DetectConfig.default ℚ) .off
    ⟨100⟩ true ⟨false, true⟩ Sample.fileVersion hagrees hsource 0 hpassed
  obtain ⟨as, hloop, -⟩ := Agent.hashLoop_foldl ⟨none, true⟩ start ring.yielded
  obtain ⟨as', hloop', -⟩ := Agent.hashLoop_foldl ⟨none, true⟩ start stream.packets.1
  rw [hlen] at htake
  have hall := hsame as as' hloop hloop'
  rw [hlen] at hall
  exact ⟨hseqs, stream, as, as', hnew, htake, hloop, hloop', hall⟩
