/-
# Parity of the two packet decoders

The eBPF backend and the header parser on the same Ethernet frame.  Where both yield a
record they agree in all but the time and the interface (`EbpfSource.record_agrees`).
They accept the same frames exactly as long as the header lengths in the packet are no
shorter than the headers, which only the parser checks (`EbpfSource.accepts_iff`).
-/
import L4Scope.Bpf

open Outcome

/-- The IP length field of an Ethernet frame does not exceed the bytes present. -/
def FrameLengthPresent (data : Bytes) : Prop :=
  ∀ et l3, stripLink DLT_EN10MB data = value (et, l3) → LengthPresent et l3

/-- The Ethernet header of an untagged IP frame. -/
theorem stripLink_untagged {data : Bytes} (h14 : 14 ≤ data.length) (hip : IsIp (etherType data)) :
    stripLink DLT_EN10MB data = value (etherType data, etherBody data) := by
  have htag : ¬ IsTag (be16At data 12) := not_isTag_of_isIp hip
  rw [stripLink_ethernet, if_neg (by omega), if_pos htag]
  rfl

namespace EbpfSource

variable (src : EbpfSource) (bpf : BpfHelpers) (skb : SkBuff) (tsNanos : ℕ) (iface : UInt32)

/-! ## Decoded values -/

/-- **The two backends decode the same values.**  If both yield a record for a frame whose
IP length field does not exceed the bytes present, the records differ at most in the time
and the interface. -/
theorem record_agrees (hpresent : FrameLengthPresent skb.data) {m m' : PacketMeta}
    (hrecord : src.record bpf skb = some m)
    (hparse : parseFrame DLT_EN10MB skb.data tsNanos iface = value m') :
    m' = { m with tsNanos := m'.tsNanos, iface := m'.iface } := by
  have hres : bpf.reserved = true := by
    by_contra hfull
    rw [src.record_of_not_reserved (Bool.eq_false_iff.2 hfull)] at hrecord
    cases hrecord
  have hip : HoldsIp skb.data := by
    by_contra hip
    rw [src.record_of_not_holdsIp hip] at hrecord
    cases hrecord
  have hlink := stripLink_untagged hip.1 hip.2.1
  have hlen := hpresent _ _ hlink
  by_cases htcp : (etherIp skb.data).proto = IPPROTO_TCP
  · rw [src.record_tcp hres htcp] at hrecord
    rw [parseFrame_tcp hlink _ _ htcp] at hparse
    split_ifs at hrecord hparse with hrec hok
    -- the clamp of the parser does nothing when the payload is there
    rw [min_eq_left (hlen.payload_le hok.1)] at hparse
    cases hrecord
    cases hparse
    rfl
  by_cases hudp : (etherIp skb.data).proto = IPPROTO_UDP
  · rw [src.record_udp hres hudp] at hrecord
    rw [parseFrame_udp hlink _ _ hudp] at hparse
    split_ifs at hrecord hparse with hrec hok
    cases hrecord
    cases hparse
    rfl
  · rw [src.record_other htcp hudp] at hrecord
    cases hrecord

/-- A data segment of five bytes on both backends. -/
theorem record_agrees_segment :
    let skb : SkBuff := ⟨Sample.frame 0x50 1000 5, 3⟩
    ∃ m m', (EbpfSource.mk 100).record ⟨7, true⟩ skb = some m ∧
      parseFrame DLT_EN10MB skb.data 0 0 = value m' ∧ m.payloadLen = 5 ∧
      m' = { m with tsNanos := m'.tsNanos, iface := m'.iface } := by
  intro skb
  have hlink : stripLink DLT_EN10MB skb.data = value (ETH_P_IP, etherBody skb.data) := by decide
  have hpresent : FrameLengthPresent skb.data := by
    intro et l3 h
    rw [hlink] at h
    cases h
    decide
  have hrecord : (EbpfSource.mk 100).record ⟨7, true⟩ skb
      = some (tcpRecord (.v4 ⟨[10, 0, 0, 1], rfl⟩) (.v4 ⟨[10, 0, 0, 2], rfl⟩) 64
          (etherL4 skb.data) 5 107 3) := by decide
  have hparse : parseFrame DLT_EN10MB skb.data 0 0
      = value (tcpRecord (.v4 ⟨[10, 0, 0, 1], rfl⟩) (.v4 ⟨[10, 0, 0, 2], rfl⟩) 64
          (etherL4 skb.data) 5 0 0) := by decide
  exact ⟨_, _, hrecord, hparse, by decide, record_agrees _ _ _ _ _ hpresent hrecord hparse⟩

/-! ## Acceptance -/

/-- What the eBPF backend accepts: a TCP or UDP header fits where the IP header length says
it starts. -/
theorem record_isSome_iff (hres : bpf.reserved = true) :
    (src.record bpf skb).isSome ↔
      HoldsIp skb.data ∧
        ((etherIp skb.data).proto = IPPROTO_TCP ∧ 20 ≤ (etherL4 skb.data).length ∨
          (etherIp skb.data).proto = IPPROTO_UDP ∧ 8 ≤ (etherL4 skb.data).length) := by
  have hdiff : IPPROTO_TCP ≠ IPPROTO_UDP := by decide
  by_cases htcp : (etherIp skb.data).proto = IPPROTO_TCP
  · rw [src.record_tcp hres htcp, htcp]
    split_ifs with h
    · simpa using ⟨h.1, Or.inl h.2⟩
    · simp only [Option.isSome_none, Bool.false_eq_true, hdiff, true_and, false_and, or_false, h]
  by_cases hudp : (etherIp skb.data).proto = IPPROTO_UDP
  · rw [src.record_udp hres hudp, hudp]
    split_ifs with h
    · simpa using ⟨h.1, Or.inr h.2⟩
    · simp only [Option.isSome_none, Bool.false_eq_true, hdiff.symm, true_and, false_and, false_or,
        h]
  · rw [src.record_other htcp hudp]
    simp [htcp, hudp]

/-- What the parser accepts: it also checks the two header lengths in the packet. -/
theorem parseFrame_value_iff {data : Bytes} (hip : IsIp (etherType data))
    (hext : etherType data = ETH_P_IPV6 → ¬ IsExtension (etherIp data).proto) :
    (∃ m, parseFrame DLT_EN10MB data tsNanos iface = value m) ↔
      HoldsIp data ∧ minHeaderLen (etherType data) ≤ (etherIp data).len ∧
        ((etherIp data).proto = IPPROTO_TCP ∧ 20 ≤ (etherL4 data).length ∧
            20 ≤ dataOff (etherL4 data) ∨
          (etherIp data).proto = IPPROTO_UDP ∧ 8 ≤ (etherL4 data).length) := by
  have hdiff : IPPROTO_TCP ≠ IPPROTO_UDP := by decide
  have hl4 : (etherL4 data).length = (etherBody data).length - (etherIp data).len := length_l4Of _ _
  by_cases h14 : 14 ≤ data.length
  · have hlink := stripLink_untagged h14 hip
    have hok : HeaderOk (etherType data) (etherBody data) ↔ HoldsIp data ∧
        minHeaderLen (etherType data) ≤ (etherIp data).len ∧
          (etherIp data).len ≤ (etherBody data).length := by
      rw [HeaderOk, HoldsIp]
      tauto
    by_cases htcp : (etherIp data).proto = IPPROTO_TCP
    · rw [parseFrame_tcp hlink _ _ htcp, htcp]
      split_ifs with h
      · have h' := hok.1 h.1
        simp only [value.injEq, exists_eq', true_and, true_iff]
        exact ⟨h'.1, h'.2.1, Or.inl h.2⟩
      · simp only [exists_false, false_iff, true_and, hdiff, false_and, or_false]
        rintro ⟨hholds, hmin, hfit⟩
        exact h ⟨hok.2 ⟨hholds, hmin, by omega⟩, hfit⟩
    by_cases hudp : (etherIp data).proto = IPPROTO_UDP
    · rw [parseFrame_udp hlink _ _ hudp, hudp]
      split_ifs with h
      · have h' := hok.1 h.1
        simp only [value.injEq, exists_eq', true_and, true_iff]
        exact ⟨h'.1, h'.2.1, Or.inr h.2⟩
      · simp only [exists_false, false_iff, true_and, hdiff.symm, false_and, false_or]
        rintro ⟨hholds, hmin, hfit⟩
        exact h ⟨hok.2 ⟨hholds, hmin, by omega⟩, hfit⟩
    · rw [parseFrame_other hlink _ _ htcp hudp hext]
      simp [htcp, hudp]
  · -- not even an Ethernet header
    have hreject : parseFrame DLT_EN10MB data tsNanos iface = reject := by
      rw [parseFrame, stripLink_ethernet, if_pos (by omega)]
      rfl
    rw [hreject, HoldsIp]
    simp [h14]

/-- Wherever a whole transport header fits where the IP header length says it starts, that
length, and the TCP data offset, are no shorter than the headers. -/
def SoundLengths (data : Bytes) : Prop :=
  HoldsIp data →
    ((etherIp data).proto = IPPROTO_TCP → 20 ≤ (etherL4 data).length →
      minHeaderLen (etherType data) ≤ (etherIp data).len ∧ 20 ≤ dataOff (etherL4 data)) ∧
    ((etherIp data).proto = IPPROTO_UDP → 8 ≤ (etherL4 data).length →
      minHeaderLen (etherType data) ≤ (etherIp data).len)

instance (data : Bytes) : Decidable (SoundLengths data) := by unfold SoundLengths; infer_instance

/-- **When the two backends accept the same frames.**  On an untagged Ethernet frame that
carries IPv4, or IPv6 without extension headers, the eBPF backend and the parser both
accept or both reject exactly if the header lengths in it are sound. -/
theorem accepts_iff (hres : bpf.reserved = true) (hip : IsIp (etherType skb.data))
    (hext : etherType skb.data = ETH_P_IPV6 → ¬ IsExtension (etherIp skb.data).proto) :
    ((src.record bpf skb).isSome ↔
      ∃ m, parseFrame DLT_EN10MB skb.data tsNanos iface = value m) ↔ SoundLengths skb.data := by
  have hdiff : IPPROTO_TCP ≠ IPPROTO_UDP := by decide
  rw [src.record_isSome_iff bpf skb hres, parseFrame_value_iff tsNanos iface hip hext, SoundLengths]
  constructor
  · intro h hholds
    refine ⟨fun htcp hlen => ?_, fun hudp hlen => ?_⟩
    · rcases h.1 ⟨hholds, Or.inl ⟨htcp, hlen⟩⟩ with ⟨-, hmin, ⟨-, -, hdoff⟩ | ⟨hudp, -⟩⟩
      · exact ⟨hmin, hdoff⟩
      · exact absurd (htcp.symm.trans hudp) hdiff
    · exact (h.1 ⟨hholds, Or.inr ⟨hudp, hlen⟩⟩).2.1
  · intro hsound
    constructor
    · rintro ⟨hholds, ⟨htcp, hlen⟩ | ⟨hudp, hlen⟩⟩
      · obtain ⟨hmin, hdoff⟩ := (hsound hholds).1 htcp hlen
        exact ⟨hholds, hmin, Or.inl ⟨htcp, hlen, hdoff⟩⟩
      · exact ⟨hholds, (hsound hholds).2 hudp hlen, Or.inr ⟨hudp, hlen⟩⟩
    · rintro ⟨hholds, -, ⟨htcp, hlen, -⟩ | ⟨hudp, hlen⟩⟩
      · exact ⟨hholds, Or.inl ⟨htcp, hlen⟩⟩
      · exact ⟨hholds, Or.inr ⟨hudp, hlen⟩⟩

/-- A data segment of five bytes is accepted by both backends. -/
theorem accepts_iff_segment :
    ((EbpfSource.mk 100).record ⟨7, true⟩ ⟨Sample.frame 0x50 1000 5, 3⟩).isSome ↔
      ∃ m, parseFrame DLT_EN10MB (Sample.frame 0x50 1000 5) 0 0 = value m :=
  (accepts_iff (EbpfSource.mk 100) ⟨7, true⟩ ⟨Sample.frame 0x50 1000 5, 3⟩ 0 0 rfl (by decide)
    (by decide)).2 (by decide)

/-- A TCP header with data offset 0 is accepted by the eBPF backend only. -/
theorem accepts_forged :
    let data := Sample.frame 0x00 1000 0
    IsIp (etherType data) ∧ LengthPresent (etherType data) (etherBody data) ∧
      ¬ (((EbpfSource.mk 100).record ⟨7, true⟩ ⟨data, 3⟩).isSome ↔
        ∃ m, parseFrame DLT_EN10MB data 0 0 = value m) := by
  intro data
  refine ⟨by decide, by decide, ?_⟩
  have hreject : parseFrame DLT_EN10MB data 0 0 = reject := by decide
  have haccept : ((EbpfSource.mk 100).record ⟨7, true⟩ ⟨data, 3⟩).isSome = true := by decide
  rw [hreject]
  intro h
  obtain ⟨m, hm⟩ := h.1 haccept
  cases hm

end EbpfSource
