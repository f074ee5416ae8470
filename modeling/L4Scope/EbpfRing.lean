/-
# The ring buffer of the eBPF backend

The classifier writes its records to a ring buffer as bytes, laid out as `struct l4_event`, and
userspace takes them out one at a time: `next_packet` decodes an item or skips it, and waits on an
empty buffer.  The buffer itself, which belongs to the kernel and is read through aya's `RingBuf`,
is taken as a first-in first-out queue: what was reserved and submitted comes out once, in order.

The classifier runs whenever a packet passes, also while userspace reads.  In any order of their
steps every record is yielded once, in the order of the packets (`EbpfSource.ring_delivers`).
-/
import L4Scope.Bpf
import L4Scope.PcapStream
import L4Scope.Machine

/-! ## Layout -/

/-- The bytes of a number in the byte order of the machine. -/
def neBytes (little : Bool) (n x : ℕ) : Bytes :=
  if little then (beBytes n x).reverse else beBytes n x

/-- The number that bytes in the byte order of the machine stand for. -/
def neNat (little : Bool) (b : Bytes) : ℕ := beNat (if little then b.reverse else b)

/-- A number has its width. -/
theorem length_neBytes (little : Bool) (n x : ℕ) : (neBytes little n x).length = n := by
  rw [neBytes]
  split_ifs <;> simp

/-- A number that fits is read back. -/
theorem neNat_neBytes (little : Bool) {n x : ℕ} (h : x < 256 ^ n) :
    neNat little (neBytes little n x) = x := by
  cases little <;> simp [neNat, neBytes, beNat_beBytes n x h]

namespace BpfL4Event

/-- The fields in the order of the struct, with the padding at its end. -/
def fields (little : Bool) (e : BpfL4Event) : List Bytes :=
  [neBytes little 8 e.tsNanos, e.saddr.1, e.daddr.1, neBytes little 2 e.sport.toNat,
    neBytes little 2 e.dport.toNat, neBytes little 4 e.seq.toNat, neBytes little 4 e.ack.toNat,
    neBytes little 4 e.window.toNat, neBytes little 4 e.payloadLen.toNat, [e.family], [e.proto],
    [e.flags], [e.ttl], neBytes little 4 e.iface.toNat, List.replicate 4 0]

/-- The record as the classifier writes it. -/
def bytes (little : Bool) (e : BpfL4Event) : Bytes := (e.fields little).flatten

/-- `size_of::<BpfL4Event>()`. -/
def size : ℕ := 72

/-- A record has the size of the struct. -/
theorem length_bytes (little : Bool) (e : BpfL4Event) : (e.bytes little).length = size := by
  simp [bytes, fields, length_neBytes, e.saddr.2, e.daddr.2, size]

/-- `read_unaligned`: the record at the front of some bytes. -/
def ofBytes (little : Bool) (b : Bytes) : BpfL4Event where
  tsNanos := neNat little (octetsAt 8 b 0).1
  saddr := octetsAt 16 b 8
  daddr := octetsAt 16 b 24
  sport := .ofNat (neNat little (octetsAt 2 b 40).1)
  dport := .ofNat (neNat little (octetsAt 2 b 42).1)
  seq := .ofNat (neNat little (octetsAt 4 b 44).1)
  ack := .ofNat (neNat little (octetsAt 4 b 48).1)
  window := .ofNat (neNat little (octetsAt 4 b 52).1)
  payloadLen := .ofNat (neNat little (octetsAt 4 b 56).1)
  family := byteAt b 60
  proto := byteAt b 61
  flags := byteAt b 62
  ttl := byteAt b 63
  iface := .ofNat (neNat little (octetsAt 4 b 64).1)

/-- The sizes of the fields. -/
def sizes : List ℕ := [8, 16, 16, 2, 2, 4, 4, 4, 4, 1, 1, 1, 1, 4, 4]

variable {little : Bool} {e : BpfL4Event}

/-- The widths of the fields. -/
theorem length_fields : (e.fields little).map List.length = sizes := by
  simp [fields, sizes, length_neBytes, e.saddr.2, e.daddr.2]

/-- A field is read behind those before it. -/
theorem octetsAt_bytes (k : ℕ) {field : Bytes} (h : (e.fields little)[k]? = some field)
    {n : ℕ} (hn : field.length = n) (rest : Bytes) :
    octetsAt n (e.bytes little ++ rest) (sizes.take k).sum = ⟨field, hn⟩ := by
  obtain ⟨hk, rfl⟩ := List.getElem?_eq_some_iff.1 h
  have hbytes : e.bytes little ++ rest = ((e.fields little).take k).flatten
      ++ ((e.fields little)[k] ++ (((e.fields little).drop (k + 1)).flatten ++ rest)) := by
    have hsplit : (e.fields little).take k ++ (e.fields little)[k] :: (e.fields little).drop (k + 1)
        = e.fields little := by
      rw [List.getElem_cons_drop, List.take_append_drop]
    have hflat := congrArg List.flatten hsplit
    rw [List.flatten_append, List.flatten_cons] at hflat
    rw [bytes, ← hflat, List.append_assoc, List.append_assoc]
  have hoff : ((e.fields little).take k).flatten.length = (sizes.take k).sum := by
    rw [List.length_flatten, List.map_take, length_fields]
  rw [hbytes, octetsAt_append n _ hoff]
  exact octetsAt_self ⟨(e.fields little)[k], hn⟩ _

/-- A numeric field is read back at its offset. -/
theorem neNat_bytes (k : ℕ) {n x : ℕ} (h : (e.fields little)[k]? = some (neBytes little n x))
    (hx : x < 256 ^ n) (rest : Bytes) :
    neNat little (octetsAt n (e.bytes little ++ rest) (sizes.take k).sum).1 = x := by
  rw [octetsAt_bytes k h (length_neBytes _ _ _) rest, neNat_neBytes little hx]

/-- So is a byte. -/
theorem byteAt_bytes (k : ℕ) {x : UInt8} (h : (e.fields little)[k]? = some [x]) (rest : Bytes) :
    byteAt (e.bytes little ++ rest) (sizes.take k).sum = x :=
  (List.cons.inj (congrArg Subtype.val (octetsAt_bytes k h rfl rest))).1

/-- **The two sides agree on the layout.** -/
theorem ofBytes_bytes (hts : e.tsNanos < 2 ^ 64) (rest : Bytes) :
    ofBytes little (e.bytes little ++ rest) = e := by
  have hsaddr : octetsAt 16 (e.bytes little ++ rest) 8 = e.saddr :=
    octetsAt_bytes 1 rfl e.saddr.2 rest
  have hdaddr : octetsAt 16 (e.bytes little ++ rest) 24 = e.daddr :=
    octetsAt_bytes 2 rfl e.daddr.2 rest
  have htime : neNat little (octetsAt 8 (e.bytes little ++ rest) 0).1 = e.tsNanos :=
    neNat_bytes 0 rfl hts rest
  have hsport : neNat little (octetsAt 2 (e.bytes little ++ rest) 40).1 = e.sport.toNat :=
    neNat_bytes 3 rfl e.sport.toNat_lt rest
  have hdport : neNat little (octetsAt 2 (e.bytes little ++ rest) 42).1 = e.dport.toNat :=
    neNat_bytes 4 rfl e.dport.toNat_lt rest
  have hseq : neNat little (octetsAt 4 (e.bytes little ++ rest) 44).1 = e.seq.toNat :=
    neNat_bytes 5 rfl e.seq.toNat_lt rest
  have hack : neNat little (octetsAt 4 (e.bytes little ++ rest) 48).1 = e.ack.toNat :=
    neNat_bytes 6 rfl e.ack.toNat_lt rest
  have hwindow : neNat little (octetsAt 4 (e.bytes little ++ rest) 52).1 = e.window.toNat :=
    neNat_bytes 7 rfl e.window.toNat_lt rest
  have hpayload : neNat little (octetsAt 4 (e.bytes little ++ rest) 56).1 = e.payloadLen.toNat :=
    neNat_bytes 8 rfl e.payloadLen.toNat_lt rest
  have hfamily : byteAt (e.bytes little ++ rest) 60 = e.family := byteAt_bytes 9 rfl rest
  have hproto : byteAt (e.bytes little ++ rest) 61 = e.proto := byteAt_bytes 10 rfl rest
  have hflags : byteAt (e.bytes little ++ rest) 62 = e.flags := byteAt_bytes 11 rfl rest
  have httl : byteAt (e.bytes little ++ rest) 63 = e.ttl := byteAt_bytes 12 rfl rest
  have hiface : neNat little (octetsAt 4 (e.bytes little ++ rest) 64).1 = e.iface.toNat :=
    neNat_bytes 13 rfl e.iface.toNat_lt rest
  rw [ofBytes, htime, hsaddr, hdaddr, hsport, hdport, hseq, hack, hwindow, hpayload, hfamily,
    hproto, hflags, httl, hiface]
  simp only [UInt16.ofNat_toNat, UInt32.ofNat_toNat]

end BpfL4Event

/-! ## Userspace -/

variable {ε : Type}

namespace EbpfSource

/-- An item of the buffer: too short or undecodable ones are skipped. -/
def readItem (src : EbpfSource) (little : Bool) (item : Bytes) : Option PacketMeta :=
  if BpfL4Event.size ≤ item.length then src.decode (BpfL4Event.ofBytes little item) else none

/-- An item is decoded as the record that was written. -/
theorem readItem_bytes (src : EbpfSource) {little : Bool} {e : BpfL4Event}
    (hts : e.tsNanos < 2 ^ 64) : src.readItem little (e.bytes little) = src.decode e := by
  have hread := @BpfL4Event.ofBytes_bytes little e hts []
  rw [List.append_nil] at hread
  rw [readItem, if_pos (BpfL4Event.length_bytes little e).ge, hread]

end EbpfSource

/-! ## The buffer between the two sides -/

/-- The items in the buffer, and what userspace has got out of it: packets, and the failure of a
poll that ended the capture. -/
structure EbpfRing (ε : Type) where
  items : List Bytes
  yielded : List PacketMeta
  failure : Option (Error ε)

/-- The classifier runs on a packet, or userspace makes one pass through the loop of `next_packet`;
`poll` is the error of the poll in it, if it comes to one that fails otherwise than by an
interrupt. -/
inductive EbpfStep (ε : Type) where
  | packet (bpf : BpfHelpers) (skb : SkBuff)
  | next (poll : Option ε)

namespace EbpfStep

/-- The packet that passes. -/
def packet? : EbpfStep ε → Option (BpfHelpers × SkBuff)
  | packet bpf skb => some (bpf, skb)
  | next _ => none

end EbpfStep

namespace EbpfRing

/-- A ring buffer before the first packet. -/
def empty : EbpfRing ε := ⟨[], [], none⟩

/-- The pass through the loop; after a failure the capture is over. -/
def next (src : EbpfSource) (little : Bool) (poll : Option ε) (r : EbpfRing ε) : EbpfRing ε :=
  if r.failure.isSome then r
  else
    match r.items with
    | item :: items =>
      match src.readItem little item with
      | some pkt => { r with items, yielded := r.yielded ++ [pkt] }
      | none => { r with items }
    | [] =>
      match poll with
      | some e => { r with failure := some (.io e) }
      | none => r

/-- The two sides on a shared buffer. -/
def machine (src : EbpfSource) (little : Bool) : Machine (EbpfRing ε) (EbpfStep ε) Unit where
  step r
    | .packet bpf skb =>
      match handle bpf skb with
      | some e => ({ r with items := r.items ++ [e.bytes little] }, ())
      | none => (r, ())
    | .next poll => (r.next src little poll, ())

variable {src : EbpfSource} {little : Bool}

/-- A record has the time of its packet. -/
theorem tsNanos_of_handle {bpf : BpfHelpers} {skb : SkBuff} {e : BpfL4Event}
    (h : handle bpf skb = some e) : e.tsNanos = bpf.ktimeNs := by
  have hemit {l4 : ℕ} {proto : UInt8} {n : UInt16} {family ttl : UInt8} {saddr daddr : Bytes}
      (hs : emitL4 bpf skb l4 proto n family ttl saddr daddr = some e) :
      e.tsNanos = bpf.ktimeNs := by
    unfold emitL4 at hs
    dsimp only at hs
    split_ifs at hs
    all_goals rw [← Option.some.inj hs]
  rw [handle_eq] at h
  split_ifs at h
  exact hemit h

/-- What was yielded, and what is still to be. -/
def accounted (src : EbpfSource) (little : Bool) (r : EbpfRing ε) : List PacketMeta :=
  r.yielded ++ r.items.filterMap (src.readItem little)

/-- A pass through the loop moves an item from the one to the other. -/
theorem accounted_next (poll : Option ε) (r : EbpfRing ε) :
    (r.next src little poll).accounted src little = r.accounted src little := by
  unfold next
  split_ifs
  · rfl
  · cases hitems : r.items with
    | nil => cases poll <;> simp [accounted, hitems]
    | cons item items =>
        cases hread : src.readItem little item with
        | none => simp [accounted, hitems, hread]
        | some pkt => simp [accounted, hitems, hread]

/-- A packet adds its record. -/
theorem accounted_packet {bpf : BpfHelpers} (hts : bpf.ktimeNs < 2 ^ 64) (skb : SkBuff)
    (r : EbpfRing ε) : ((machine src little).step r (.packet bpf skb)).1.accounted src little
      = r.accounted src little ++ (src.record bpf skb).toList := by
  rw [EbpfSource.record]
  cases hhandle : handle bpf skb with
  | none => simp [machine, hhandle]
  | some e =>
      have hread : src.readItem little (e.bytes little) = src.decode e :=
        src.readItem_bytes (by rwa [tsNanos_of_handle hhandle])
      have hlast : [e.bytes little].filterMap (src.readItem little) = (src.decode e).toList := by
        cases hdecode : src.decode e <;> simp [hread, hdecode]
      simp only [machine, hhandle, accounted]
      rw [List.filterMap_append, hlast, ← List.append_assoc]
      rfl

/-- The records of the packets that pass in some steps. -/
def records (src : EbpfSource) (steps : List (EbpfStep ε)) : List PacketMeta :=
  (steps.filterMap EbpfStep.packet?).filterMap fun x => src.record x.1 x.2

/-- A run adds the records of its packets. -/
theorem accounted_after {steps : List (EbpfStep ε)}
    (hts : ∀ x ∈ steps.filterMap EbpfStep.packet?, x.1.ktimeNs < 2 ^ 64) (r : EbpfRing ε) :
    ((machine src little).after r steps).accounted src little
      = r.accounted src little ++ records src steps := by
  induction steps generalizing r with
  | nil => exact (List.append_nil _).symm
  | cons step steps ih =>
      cases step with
      | packet bpf skb =>
          obtain ⟨hfirst, hrest⟩ := List.forall_mem_cons.1 hts
          have hrecords : records src (EbpfStep.packet bpf skb :: steps)
              = (src.record bpf skb).toList ++ records src steps := by
            cases hrecord : src.record bpf skb <;> simp [records, EbpfStep.packet?, hrecord]
          rw [Machine.after_cons, ih hrest, accounted_packet hfirst, hrecords, List.append_assoc]
      | next poll =>
          rw [Machine.after_cons, ih hts]
          exact congrArg (· ++ records src steps) (accounted_next poll r)

/-- A pass without a failing poll takes an item off the buffer. -/
theorem next_none {r : EbpfRing ε} (hr : r.failure = none) :
    (r.next src little none).failure = none ∧ (r.next src little none).items = r.items.tail := by
  obtain ⟨items, yielded, failure⟩ := r
  obtain rfl : failure = none := hr
  cases items with
  | nil => exact ⟨rfl, rfl⟩
  | cons item items => cases hread : src.readItem little item <;> simp [next, hread]

/-- Without a failing poll the capture goes on. -/
theorem failure_after {steps : List (EbpfStep ε)} (h : ∀ e, EbpfStep.next (some e) ∉ steps)
    {r : EbpfRing ε} (hr : r.failure = none) :
    ((machine src little).after r steps).failure = none := by
  induction steps generalizing r with
  | nil => exact hr
  | cons step steps ih =>
      have hrest : ∀ e, EbpfStep.next (some e) ∉ steps := fun e hmem =>
        h e (List.mem_cons_of_mem _ hmem)
      refine ih hrest ?_
      cases step with
      | packet bpf skb =>
          cases hhandle : handle bpf skb <;> simpa [machine, hhandle] using hr
      | next poll =>
          cases poll with
          | some e => exact absurd List.mem_cons_self (h e)
          | none => exact (next_none hr).1

/-- The passes through the loop that empty the buffer. -/
theorem items_after_next {r : EbpfRing ε} (hr : r.failure = none) {n : ℕ}
    (hn : r.items.length ≤ n) :
    ((machine src little).after r (List.replicate n (.next none))).items = [] := by
  induction n generalizing r with
  | zero => exact List.length_eq_zero_iff.1 (Nat.le_zero.1 hn)
  | succ n ih =>
      rw [List.replicate_succ, Machine.after_cons]
      have hnext : (r.next src little none).failure = none ∧
          (r.next src little none).items = r.items.tail := next_none hr
      obtain ⟨hfailure, hitems⟩ := hnext
      refine ih hfailure ?_
      show (r.next src little none).items.length ≤ n
      rw [hitems, List.length_tail]
      omega

end EbpfRing

/-- **Delivery.**  However the classifier and userspace take turns, what userspace has got and what
is in the buffer for it are the decoded records of all packets that passed, each once and in
order.  If no poll fails, as many passes through the loop as there are items deliver the rest. -/
theorem EbpfSource.ring_delivers (src : EbpfSource) (little : Bool) {steps : List (EbpfStep ε)}
    (hts : ∀ x ∈ steps.filterMap EbpfStep.packet?, x.1.ktimeNs < 2 ^ 64) :
    let r := (EbpfRing.machine src little).after .empty steps
    let records := (steps.filterMap EbpfStep.packet?).filterMap fun x => src.record x.1 x.2
    r.yielded ++ r.items.filterMap (src.readItem little) = records ∧
    ((∀ e, EbpfStep.next (some e) ∉ steps) → ∀ n, r.items.length ≤ n →
      let r' := (EbpfRing.machine src little).after .empty (steps ++ List.replicate n (.next none))
      r'.yielded = records ∧ r'.items = [] ∧ r'.failure = none) := by
  intro r records
  have hall : r.accounted src little = records := EbpfRing.accounted_after hts .empty
  refine ⟨hall, ?_⟩
  intro hpoll n hn r'
  have hfailure : r.failure = none := EbpfRing.failure_after hpoll rfl
  have hlast : r' = (EbpfRing.machine src little).after r (List.replicate n (.next none)) :=
    Machine.after_append _ _ _ _
  have hitems : r'.items = [] := by
    rw [hlast]
    exact EbpfRing.items_after_next hfailure hn
  have hnone : ∀ x ∈ (List.replicate n (EbpfStep.next (none : Option ε))).filterMap
      EbpfStep.packet?, x.1.ktimeNs < 2 ^ 64 := by
    rw [List.filterMap_replicate_of_none rfl]
    simp
  have hkept : r'.accounted src little = records := by
    rw [hlast, EbpfRing.accounted_after hnone, hall, EbpfRing.records,
      List.filterMap_replicate_of_none rfl, List.filterMap_nil, List.append_nil]
  rw [EbpfRing.accounted, hitems, List.filterMap_nil, List.append_nil] at hkept
  refine ⟨hkept, hitems, ?_⟩
  rw [hlast]
  exact EbpfRing.failure_after (fun e hmem => by simp at hmem) hfailure

namespace Sample

/-- Two segments with a pass of userspace between them. -/
def ringSteps : List (EbpfStep Unit) :=
  [.packet ⟨7, true⟩ ⟨frame 0x50 1000 5, 3⟩, .next none, .packet ⟨9, true⟩ ⟨frame 0x50 1005 5, 3⟩]

end Sample

/-- The second segment is delivered by one more pass. -/
theorem EbpfSource.ring_delivers_segments :
    let r := (EbpfRing.machine ⟨100⟩ true).after .empty (Sample.ringSteps ++ [.next none])
    r.yielded.map PacketMeta.seq = [1000, 1005] ∧ r.failure = none := by
  have hts : ∀ x ∈ Sample.ringSteps.filterMap EbpfStep.packet?, x.1.ktimeNs < 2 ^ 64 := by decide
  obtain ⟨-, hdrain⟩ := EbpfSource.ring_delivers ⟨100⟩ true hts
  obtain ⟨hyielded, -, hfailure⟩ := hdrain (by simp [Sample.ringSteps]) 1 (by decide +kernel)
  refine ⟨?_, hfailure⟩
  have hseqs := congrArg (List.map PacketMeta.seq) hyielded
  exact hseqs.trans (by decide +kernel)
