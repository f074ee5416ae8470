/-
# Later fragments

A fragment other than the first holds no transport header.  The parser never looks at the
fragment offset of an IPv4 header, and steps over an IPv6 fragment header whatever its
offset: a later fragment is dropped only if the bytes at the end of its headers do not
pass for a transport header (`parseFrame_laterFragment`).
-/
import L4Scope.IPv6Extensions
import L4Scope.ParseTotal

open Outcome

/-! ## Later fragments -/

/-- An IPv4 packet with a fragment offset: the last 13 bits of the 16 at byte 6. -/
def LaterFragment4 (d : Bytes) : Prop := 20 ≤ d.length ∧ beAt 2 d 6 % 2 ^ 13 ≠ 0

/-- The chain of extension headers that starts at `off`, with a header numbered `next`, holds a
fragment header with a fragment offset. -/
inductive LaterFragmentFrom (d : Bytes) : UInt8 → ℕ → Prop where
  | here {off : ℕ} (hin : off + 8 ≤ d.length) (hoffset : beAt 2 d (off + 2) / 8 ≠ 0) :
      LaterFragmentFrom d 44 off
  | behind {k : ExtKind} {off : ℕ} (hin : off + 2 ≤ d.length)
      (h : LaterFragmentFrom d (byteAt d off) (off + k.size (byteAt d (off + 1)))) :
      LaterFragmentFrom d k.number off

/-- An IPv6 packet with a fragment offset. -/
def LaterFragment6 (d : Bytes) : Prop := 40 ≤ d.length ∧ LaterFragmentFrom d (byteAt d 6) 40

/-- A frame that holds a fragment other than the first. -/
def LaterFragment (linktype : UInt32) (data : Bytes) : Prop :=
  (∃ d, stripLink linktype data = value (ETH_P_IP, d) ∧ LaterFragment4 d) ∨
    ∃ d, stripLink linktype data = value (ETH_P_IPV6, d) ∧ LaterFragment6 d

/-! ## What passes for a transport header -/

/-- Bytes that pass for the transport header numbered `number`. -/
def PassesFor (number : UInt8) (l4 : Bytes) : Prop :=
  number = IPPROTO_TCP ∧ 20 ≤ l4.length ∧ 20 ≤ dataOff l4 ∨ number = IPPROTO_UDP ∧ 8 ≤ l4.length

instance (number : UInt8) (l4 : Bytes) : Decidable (PassesFor number l4) := by
  unfold PassesFor; infer_instance

/-- Such bytes are looked for with a transport number only. -/
theorem PassesFor.isTransport {number : UInt8} {l4 : Bytes} (h : PassesFor number l4) :
    IsTransport number := by
  obtain ⟨h, -⟩ | ⟨h, -⟩ := h
  · exact Or.inl h
  · exact Or.inr h

/-- The last stage drops what does not pass for a header. -/
theorem finish_eq_reject_iff (number : UInt8) (src dst : IpAddr) (ttl : UInt8) (l4 : Bytes)
    (n tsNanos : ℕ) (iface : UInt32) :
    finish number src dst ttl l4 n tsNanos iface = reject ↔ ¬ PassesFor number l4 := by
  by_cases htcp : number = IPPROTO_TCP
  · subst htcp
    rw [finish_tcp, PassesFor]
    split
    · rename_i hbad
      simp only [true_iff]
      rintro (⟨-, hlen, hoff⟩ | ⟨hudp, -⟩)
      · omega
      · exact absurd hudp (by decide)
    · have hok : 20 ≤ l4.length ∧ 20 ≤ dataOff l4 := by omega
      simp [hok]
  by_cases hudp : number = IPPROTO_UDP
  · subst hudp
    rw [finish_udp, PassesFor]
    split
    · simp only [htcp, true_and, false_and, false_or, true_iff]
      omega
    · have hok : 8 ≤ l4.length := by omega
      simp [hok]
  · simp [finish_other, PassesFor, htcp, hudp]

/-- The IPv4 header is followed by bytes that pass for a transport header. -/
def Passes4 (d : Bytes) : Prop :=
  HeaderOk ETH_P_IP d ∧ PassesFor (byteAt d 9) (d.drop (ihlLen d))

/-- Walking over `n` headers at most, each of them inside the packet, leads to a transport
header.  A length is taken in the unit of the header that comes next. -/
inductive Walk (d : Bytes) (stop : ℕ) : ℕ → UInt8 → ℕ → UInt8 → ℕ → Prop where
  | done {n off : ℕ} {number : UInt8} (htransport : IsTransport number) :
      Walk d stop n number off number off
  | length {n off off' : ℕ} {next number : UInt8} (hnext : HoldsLength next)
      (hin : off + 2 ≤ d.length)
      (hstop : off + skippedLen (byteAt d off) (byteAt d (off + 1)) < stop)
      (h : Walk d stop n (byteAt d off) (off + skippedLen (byteAt d off) (byteAt d (off + 1)))
        number off') :
      Walk d stop (n + 1) next off number off'
  | fragment {n off off' : ℕ} {number : UInt8} (hin : off < d.length) (hstop : off + 8 < stop)
      (h : Walk d stop n (byteAt d off) (off + 8) number off') :
      Walk d stop (n + 1) 44 off number off'

/-- The extension headers of an IPv6 packet lead to bytes that pass for a transport header. -/
def Passes6 (d : Bytes) : Prop :=
  40 ≤ d.length ∧ ∃ number off,
    Walk d (min (40 + beAt 2 d 4) d.length) 8 (byteAt d 6) 40 number off ∧
      PassesFor number (d.drop off)

/-- The bytes behind the headers of a frame pass for a transport header. -/
def Passes (linktype : UInt32) (data : Bytes) : Prop :=
  (∃ d, stripLink linktype data = value (ETH_P_IP, d) ∧ Passes4 d) ∨
    ∃ d, stripLink linktype data = value (ETH_P_IPV6, d) ∧ Passes6 d

/-! ## What the parser drops -/

/-- What is dropped of IPv4. -/
theorem parseIpv4_eq_reject_iff (d : Bytes) (tsNanos : ℕ) (iface : UInt32) :
    parseIpv4 d tsNanos iface = reject ↔ ¬ Passes4 d := by
  rw [parseIpv4_eq, Passes4, headerOk_ipv4]
  split
  · rename_i hbad
    simp [hbad]
  · rename_i hok
    rw [finish_eq_reject_iff]
    simp [hok]

/-- The relation is what the walk computes. -/
theorem walkExt_eq_iff {d : Bytes} {stop : ℕ} (hstop : stop < 2 ^ 31) {number : UInt8}
    (htransport : IsTransport number) (off' n : ℕ) :
    ∀ (next : UInt8) (off : ℕ), off < 2 ^ 31 →
      (walkExt d stop n next off = value (number, off') ↔ Walk d stop n next off number off') := by
  have hdone (n : ℕ) (next : UInt8) (off : ℕ) (h : value (next, off) = value (number, off')) :
      Walk d stop n next off number off' := by
    obtain ⟨rfl, rfl⟩ : next = number ∧ off = off' := by simpa using h
    exact Walk.done htransport
  induction n with
  | zero =>
      intro next off _
      refine ⟨hdone 0 next off, fun h => ?_⟩
      cases h
      rfl
  | succ n ih =>
      intro next off hoff
      by_cases hnext : IsTransport next
      · rw [walkExt_transport hnext]
        refine ⟨hdone (n + 1) next off, fun h => ?_⟩
        cases h with
        | done => rfl
        | length hlength => exact absurd hnext (not_isTransport_of_holdsLength hlength)
        | fragment => exact absurd hnext (by decide)
      -- two checks stand before every step: the header is there, and it ends in the packet
      by_cases hlength : HoldsLength next
      · rw [walkExt_length hlength d (by omega), ite_reject_eq_value, ite_reject_eq_value]
        have hskipped := skippedLen_le (byteAt d off) (byteAt d (off + 1))
        constructor
        · rintro ⟨hin, hend, h⟩
          exact Walk.length hlength (by omega) (by omega) ((ih _ _ (by omega)).1 h)
        · intro h
          cases h with
          | done => exact absurd htransport hnext
          | length _ hin hend h =>
              exact ⟨by omega, by omega, (ih _ _ (by omega)).2 h⟩
          | fragment => exact absurd hlength (by decide)
      by_cases hfrag : next = 44
      · subst hfrag
        rw [walkExt_fragment d (by omega), ite_reject_eq_value, ite_reject_eq_value]
        constructor
        · rintro ⟨hin, hend, h⟩
          exact Walk.fragment (by omega) (by omega) ((ih _ _ (by omega)).1 h)
        · intro h
          cases h with
          | done => exact absurd htransport hnext
          | length h => exact absurd h hlength
          | fragment hin hend h =>
              exact ⟨by omega, by omega, (ih _ _ (by omega)).2 h⟩
      · rw [walkExt_other hnext (not_isExtension hlength hfrag)]
        constructor
        · intro h
          cases h
        · intro h
          cases h with
          | done => exact absurd htransport hnext
          | length h => exact absurd h hlength
          | fragment => exact absurd rfl hfrag

/-- What is dropped of IPv6. -/
theorem parseIpv6_eq_reject_iff (d : Bytes) (tsNanos : ℕ) (iface : UInt32) :
    parseIpv6 d tsNanos iface = reject ↔ ¬ Passes6 d := by
  have hpayload := beAt_lt 2 d 4
  have hstop : min (40 + beAt 2 d 4) d.length < 2 ^ 31 := by omega
  rw [parseIpv6_eq, Passes6]
  by_cases hlen : d.length < 40
  · rw [if_pos hlen]
    simp [hlen]
  rw [if_neg hlen]
  simp only [Nat.le_of_not_lt hlen, true_and]
  have hiff {number : UInt8} (h : IsTransport number) (off : ℕ) :=
    walkExt_eq_iff (d := d) hstop h off 8 (byteAt d 6) 40 (by omega)
  have hensures := walkExt_ensures d (hstop.trans (by decide)) 8 (byteAt d 6)
    (show 40 < 2 ^ 32 by decide)
  cases hwalk : walkExt d (min (40 + beAt 2 d 4) d.length) 8 (byteAt d 6) 40 with
  | panic =>
      rw [hwalk] at hensures
      exact hensures.elim
  | reject =>
      -- a walk to a transport header would be an answer
      simp only [reject_bind, true_iff, not_exists, not_and]
      intro number off h hpasses
      rw [← hiff hpasses.isTransport, hwalk] at h
      cases h
  | value r =>
      obtain ⟨number, off⟩ := r
      simp only [value_bind]
      -- the walk ends at one place
      have hends : (∃ number off, Walk d (min (40 + beAt 2 d 4) d.length) 8 (byteAt d 6) 40 number
          off ∧ PassesFor number (d.drop off)) ↔ PassesFor number (d.drop off) := by
        constructor
        · rintro ⟨number', off', h, hpasses⟩
          rw [← hiff hpasses.isTransport, hwalk] at h
          cases h
          exact hpasses
        · intro hpasses
          exact ⟨number, off, (hiff hpasses.isTransport off).1 hwalk, hpasses⟩
      rw [hends]
      by_cases hoff : off ≤ d.length
      · rw [getFrom_of_le hoff, value_bind, finish_eq_reject_iff]
      · rw [getFrom, if_neg hoff, reject_bind, List.drop_eq_nil_of_le (by omega)]
        simp [PassesFor]

/-- A frame is dropped exactly if nothing in it passes for a transport header. -/
theorem parseFrame_eq_reject_iff (linktype : UInt32) (data : Bytes) (tsNanos : ℕ)
    (iface : UInt32) :
    parseFrame linktype data tsNanos iface = reject ↔ ¬ Passes linktype data := by
  have hensures := stripLink_ensures linktype data
  cases hlink : stripLink linktype data with
  | panic =>
      rw [hlink] at hensures
      exact hensures.elim
  | reject => simp [parseFrame, Passes, hlink]
  | value r =>
      obtain ⟨et, d⟩ := r
      rw [parseFrame_of_stripLink hlink, Passes, hlink]
      by_cases h4 : et = ETH_P_IP
      · subst h4
        have h6 : ETH_P_IP ≠ ETH_P_IPV6 := by decide
        rw [if_pos rfl, parseIpv4_eq_reject_iff]
        simp [h6]
      rw [if_neg h4]
      by_cases h6 : et = ETH_P_IPV6
      · subst h6
        rw [if_pos rfl, parseIpv6_eq_reject_iff]
        simp [h4]
      · simp [h4, h6]

/-- **A later fragment is dropped** exactly if the bytes behind its headers do not pass for
a transport header, in whichever link framing: the fragment offset makes no difference. -/
theorem parseFrame_laterFragment (linktype : UInt32) (data : Bytes) (tsNanos : ℕ)
    (iface : UInt32) :
    LaterFragment linktype data →
      (parseFrame linktype data tsNanos iface = reject ↔ ¬ Passes linktype data) :=
  fun _ => parseFrame_eq_reject_iff linktype data tsNanos iface

namespace Sample

/-- An IPv4 fragment at offset 1480, with 20 bytes of a TCP segment's text. -/
def laterFragment4 : Bytes :=
  [0x45, 0, 0, 40, 0, 0, 0, 0xb9, 64, 6, 0, 0, 10, 0, 0, 1, 10, 0, 0, 2] ++ List.replicate 20 0x64

/-- The same text in an IPv6 fragment. -/
def laterFragment6 : Bytes :=
  [0x60, 0, 0, 0, 0, 28, 44, 64] ++ List.replicate 16 1 ++ List.replicate 16 2
    ++ [6, 0, 0x05, 0xc8, 0, 0, 0, 1] ++ List.replicate 20 0x64

/-- The last 8 bytes of a datagram. -/
def lastFragment : Bytes :=
  [0x45, 0, 0, 28, 0, 0, 0, 0xb9, 64, 6, 0, 0, 10, 0, 0, 1, 10, 0, 0, 2] ++ List.replicate 8 0x64

end Sample

/-- They are too few for a TCP header. -/
theorem parseFrame_laterFragment_last :
    LaterFragment DLT_RAW Sample.lastFragment ∧
      parseFrame DLT_RAW Sample.lastFragment 0 0 = reject := by
  have hlater : LaterFragment DLT_RAW Sample.lastFragment :=
    Or.inl ⟨Sample.lastFragment, by decide, by decide, by decide⟩
  refine ⟨hlater, (parseFrame_laterFragment DLT_RAW Sample.lastFragment 0 0 hlater).2 ?_⟩
  rintro (⟨d, hd, -, hpasses⟩ | ⟨d, hd, -⟩)
  · cases hd
    revert hpasses
    decide
  · cases hd

/-- The text of two later fragments becomes a reset between ports 25700. -/
theorem laterFragment_decoded :
    (LaterFragment DLT_RAW Sample.laterFragment4 ∧ ∃ m,
      parseFrame DLT_RAW Sample.laterFragment4 0 0 = value m ∧ m.flags.rst = true ∧
        (endpoints m).2.port = 25700) ∧
    (LaterFragment DLT_RAW Sample.laterFragment6 ∧ ∃ m,
      parseFrame DLT_RAW Sample.laterFragment6 0 0 = value m ∧ m.flags.rst = true ∧
        (endpoints m).2.port = 25700) := by
  refine ⟨⟨Or.inl ⟨Sample.laterFragment4, by decide, by decide, by decide⟩, ?_⟩,
    ⟨Or.inr ⟨Sample.laterFragment6, by decide, by decide, ?_⟩, ?_⟩⟩
  · exact ⟨_, rfl, by decide, by decide⟩
  · exact LaterFragmentFrom.here (by decide) (by decide)
  · exact ⟨_, rfl, by decide, by decide⟩
