/-
# The pod CIDR list

The list of pod CIDRs is a comma-separated text; entries that are no CIDR are skipped.  An address
lies in a CIDR if the two are of one IP version and agree in as many leading bits as the prefix
says (`IpAddr.LiesIn`), which is what the masks compute (`cidrContains_iff`).  So a flow is
attributed exactly if one of its addresses lies in some entry, whatever else the list holds
(`localPodIp_exact`).

Reading an address is a parameter, `parseIp`.
-/
import L4Scope.Attribution
import L4Scope.FlowIdentity
import L4Scope.PrefixMask
import L4Scope.Trimmed

variable (parseIp : List Char → Option IpAddr)

/-! ## The list -/

/-- What one entry of the list adds. -/
def cidrEntry (part : List Char) : Option (IpAddr × UInt32) :=
  let part := trim part
  if part = [] then none
  else
    match splitOnce '/' part with
    | none => none
    | some (net, pfx) =>
      match parseIp (trim net), parseUnsigned 32 (trim pfx) with
      | some ip, some p => some (ip, .ofNat p)
      | _, _ => none

/-- Parse a comma-separated CIDR list.  Invalid entries are skipped. -/
def PodMatcher.new (spec : List Char) : PodMatcher where
  cidrs := (spec.splitOn ',').filterMap (cidrEntry parseIp)

/-! ## Membership -/

namespace IpAddr

/-- The IP version. -/
def version : IpAddr → ℕ
  | v4 _ => 4
  | v6 _ => 6

/-- The bytes of an address. -/
def octets : IpAddr → Bytes
  | v4 o => o.1
  | v6 o => o.1

/-- The number of bits. -/
def width : IpAddr → ℕ
  | v4 _ => 32
  | v6 _ => 128

/-- The `i`-th bit in network order. -/
def bit (a : IpAddr) (i : ℕ) : Bool := (beNat a.octets).testBit (a.width - 1 - i)

/-- The address `a` lies in `n/p`. -/
def LiesIn (a n : IpAddr) (p : ℕ) : Prop :=
  a.version = n.version ∧ p ≤ n.width ∧ ∀ i < p, n.bit i = a.bit i

end IpAddr

/-- The first bits agree. -/
theorem maskedEq_iff {w : ℕ} {pfx : UInt32} {net ip : Bytes} :
    maskedEq w pfx net ip = true ↔ pfx.toNat ≤ w ∧
      ∀ i < pfx.toNat, (beNat net).testBit (w - 1 - i) = (beNat ip).testBit (w - 1 - i) := by
  have hmask : (if pfx = 0 then 0 else BitVec.allOnes w <<< (w - pfx.toNat))
      = BitVec.prefixMask w pfx.toNat := by
    split_ifs with hzero
    · rw [hzero]
      exact (BitVec.prefixMask_zero w).symm
    · rfl
  have hbit {i : ℕ} (hi : i < w) (n : ℕ) :
      (BitVec.ofNat w n).getMsbD i = n.testBit (w - 1 - i) := by
    rw [BitVec.getMsbD, BitVec.getLsbD_ofNat, decide_eq_true hi, Bool.true_and,
      decide_eq_true (show w - 1 - i < w by omega), Bool.true_and]
  rw [maskedEq]
  -- a prefix that is too long is refused before anything is shifted
  by_cases hlong : w < pfx.toNat
  · simp [hlong]
  · rw [if_neg hlong]
    have hle : pfx.toNat ≤ w := Nat.le_of_not_lt hlong
    dsimp only
    rw [hmask, beq_iff_eq, BitVec.and_prefixMask_eq_iff hle, and_iff_right hle]
    refine forall₂_congr fun i hi => ?_
    rw [hbit (by omega), hbit (by omega)]

/-- **The masks compute membership.** -/
theorem cidrContains_iff {n a : IpAddr} {p : UInt32} :
    cidrContains n p a = true ↔ a.LiesIn n p.toNat := by
  -- addresses of different versions are never compared
  cases n with
  | v4 n =>
      cases a with
      | v4 a =>
          rw [cidrContains, maskedEq_iff, IpAddr.LiesIn]
          exact (and_iff_right rfl).symm
      | v6 a => simp [cidrContains, IpAddr.LiesIn, IpAddr.version]
  | v6 n =>
      cases a with
      | v4 a => simp [cidrContains, IpAddr.LiesIn, IpAddr.version]
      | v6 a =>
          rw [cidrContains, maskedEq_iff, IpAddr.LiesIn]
          exact (and_iff_right rfl).symm

/-! ## Entries -/

/-- The text is the CIDR `n/p`, with white space around either side. -/
def CidrAt (part : List Char) (n : IpAddr) (p : ℕ) : Prop :=
  ∃ net pfx, part = net ++ '/' :: pfx ∧ '/' ∉ net ∧ parseIp (trim net) = some n ∧
    parseUnsigned 32 (trim pfx) = some p

variable {parseIp} in
/-- A prefix length is a `u32`. -/
theorem CidrAt.lt {part : List Char} {n : IpAddr} {p : ℕ} (h : CidrAt parseIp part n p) :
    p < 2 ^ 32 := by
  obtain ⟨net, pfx, -, -, -, hp⟩ := h
  exact parseUnsigned_lt hp

/-- The address lies in some CIDR of the list. -/
def Listed (spec : List Char) (a : IpAddr) : Prop :=
  ∃ part ∈ spec.splitOn ',', ∃ n p, CidrAt parseIp part n p ∧ a.LiesIn n p

/-- The entry is a CIDR with a prefix that fits the address. -/
def Usable (part : List Char) : Prop := ∃ n p, CidrAt parseIp part n p ∧ p ≤ n.width

/-- Trimming the whole entry changes nothing for its two sides. -/
theorem cidrEntry_eq (part : List Char) :
    cidrEntry parseIp part = (splitOnce '/' part).bind fun sides =>
      (parseIp (trim sides.1)).bind fun ip =>
        (parseUnsigned 32 (trim sides.2)).map fun p => (ip, .ofNat p) := by
  cases hsplit : splitOnce '/' part with
  | none =>
      have hnone : splitOnce '/' (trim part) = none := by
        rw [splitOnce_eq_none_iff] at hsplit ⊢
        exact fun hmem => hsplit (mem_of_mem_trim hmem)
      rw [cidrEntry, hnone]
      exact ite_self none
  | some sides =>
      obtain ⟨net, pfx⟩ := sides
      have htrim := splitOnce_trim (by decide) hsplit
      have hne : trim part ≠ [] := by
        intro hnil
        rw [hnil] at htrim
        cases htrim
      rw [cidrEntry]
      simp only [if_neg hne, htrim, trim_dropWhile, trim_rdropWhile, Option.bind_some]
      cases parseIp (trim net) with
      | none => rfl
      | some ip => cases parseUnsigned 32 (trim pfx) <;> rfl

/-- What an entry of the list stands for. -/
theorem cidrEntry_eq_some_iff {part : List Char} {n : IpAddr} {q : UInt32} :
    cidrEntry parseIp part = some (n, q) ↔ ∃ p, CidrAt parseIp part n p ∧ q = .ofNat p := by
  simp only [cidrEntry_eq, Option.bind_eq_some_iff, Option.map_eq_some_iff, Prod.mk.injEq, CidrAt]
  constructor
  · rintro ⟨⟨net, pfx⟩, hsplit, ip, hip, p, hp, rfl, rfl⟩
    obtain ⟨hpart, hnet⟩ := splitOnce_eq_some_iff.1 hsplit
    exact ⟨p, ⟨net, pfx, hpart, hnet, hip, hp⟩, rfl⟩
  · rintro ⟨p, ⟨net, pfx, hpart, hnet, hip, hp⟩, rfl⟩
    exact ⟨(net, pfx), splitOnce_eq_some_iff.2 ⟨hpart, hnet⟩, n, hip, p, hp, rfl, rfl⟩

namespace PodMatcher

/-- The matcher contains the addresses that the list says. -/
theorem contains_iff (spec : List Char) (a : IpAddr) :
    (new parseIp spec).contains a = true ↔ Listed parseIp spec a := by
  rw [contains, List.any_eq_true]
  constructor
  · rintro ⟨⟨n, q⟩, hmem, hin⟩
    obtain ⟨part, hpart, hentry⟩ := List.mem_filterMap.1 hmem
    obtain ⟨p, hcidr, rfl⟩ := (cidrEntry_eq_some_iff parseIp).1 hentry
    have hlt : p < 2 ^ 32 := hcidr.lt
    rw [cidrContains_iff, UInt32.toNat_ofNat_of_lt' hlt] at hin
    exact ⟨part, hpart, n, p, hcidr, hin⟩
  · rintro ⟨part, hpart, n, p, hcidr, hin⟩
    refine ⟨(n, .ofNat p), List.mem_filterMap.2 ⟨part, hpart, ?_⟩, ?_⟩
    · exact (cidrEntry_eq_some_iff parseIp).2 ⟨p, hcidr, rfl⟩
    · rw [cidrContains_iff, UInt32.toNat_ofNat_of_lt' hcidr.lt]
      exact hin

/-- Entries that are no CIDR, or whose prefix is too long, hold no address. -/
theorem listed_congr {spec spec' : List Char}
    (h : ∀ part, Usable parseIp part → (part ∈ spec.splitOn ',' ↔ part ∈ spec'.splitOn ','))
    (a : IpAddr) : Listed parseIp spec a ↔ Listed parseIp spec' a := by
  refine exists_congr fun part => and_congr_left ?_
  rintro ⟨n, p, hcidr, hin⟩
  exact h part ⟨n, p, hcidr, hin.2.1⟩

/-- **Attribution is CIDR membership.**  A flow is attributed exactly if one of its addresses lies
in an entry of the list, to the low one if both do.  Only the usable entries of the list count,
in any order, and either direction of the flow gives the same answer. -/
theorem localPodIp_exact (spec : List Char) (key : FlowKey) :
    (((new parseIp spec).localPodIp key).isSome ↔
      Listed parseIp spec key.low.ip ∨ Listed parseIp spec key.high.ip) ∧
    (Listed parseIp spec key.low.ip →
      (new parseIp spec).localPodIp key = some (toString key.low.ip)) ∧
    (¬ Listed parseIp spec key.low.ip → Listed parseIp spec key.high.ip →
      (new parseIp spec).localPodIp key = some (toString key.high.ip)) ∧
    (∀ spec', (∀ part, Usable parseIp part →
        (part ∈ spec.splitOn ',' ↔ part ∈ spec'.splitOn ',')) →
      (new parseIp spec').localPodIp key = (new parseIp spec).localPodIp key) ∧
    ∀ src dst proto, (new parseIp spec).localPodIp (FlowKey.canonical src dst proto).1
      = (new parseIp spec).localPodIp (FlowKey.canonical dst src proto).1 := by
  refine ⟨?_, ?_, ?_, ?_, ?_⟩
  · rw [isSome_localPodIp, Bool.or_eq_true, contains_iff, contains_iff]
  · intro hlow
    rw [localPodIp, if_pos ((contains_iff parseIp spec _).2 hlow)]
  · intro hlow hhigh
    rw [localPodIp, if_neg (mt (contains_iff parseIp spec _).1 hlow),
      if_pos ((contains_iff parseIp spec _).2 hhigh)]
  · intro spec' h
    have hsame (a : IpAddr) : (new parseIp spec').contains a = (new parseIp spec).contains a := by
      rw [Bool.eq_iff_iff, contains_iff, contains_iff]
      exact (listed_congr parseIp h a).symm
    rw [localPodIp, localPodIp, hsame, hsame]
  · intro src dst proto
    rw [FlowKey.canonical_comm]

end PodMatcher
