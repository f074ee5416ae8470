/-
# Flow identity

The canonical key stands for the unordered pair of the endpoints and the protocol, and the
direction for the order in which they were observed: no two conversations share a key, and
`endpoints` recovers the observed pair (`canonical_faithful`).  It all rests on the derived order
of the endpoints being total, across IPv4, IPv6 and the port.
-/
import L4Scope.Flow

/-! ## The canonical key -/

namespace FlowKey

/-- The endpoints of a canonical key are ordered. -/
def Canonical (k : FlowKey) : Prop := k.low ≤ k.high

/-- Endpoints in order. -/
theorem canonical_of_le {a b : Endpoint} (h : a ≤ b) (proto : Protocol) :
    canonical a b proto = (⟨a, b, proto⟩, .forward) := if_pos h

/-- Endpoints out of order. -/
theorem canonical_of_lt {a b : Endpoint} (h : b < a) (proto : Protocol) :
    canonical a b proto = (⟨b, a, proto⟩, .reverse) := if_neg (not_le.2 h)

/-- The key does not depend on the order of the endpoints. -/
theorem canonical_comm (a b : Endpoint) (proto : Protocol) :
    (canonical a b proto).1 = (canonical b a proto).1 := by
  rcases lt_trichotomy a b with h | rfl | h
  · rw [canonical_of_le h.le, canonical_of_lt h]
  · rfl
  · rw [canonical_of_lt h, canonical_of_le h.le]

/-- Keys are equal only for the same two endpoints. -/
theorem canonical_inj {a b c d : Endpoint} {p q : Protocol}
    (h : (canonical a b p).1 = (canonical c d q).1) :
    (a = c ∧ b = d ∨ a = d ∧ b = c) ∧ p = q := by
  -- both keys may have been turned round: four cases, of which two cross the pairs over
  rcases le_or_gt a b with hab | hab <;> rcases le_or_gt c d with hcd | hcd
  · rw [canonical_of_le hab, canonical_of_le hcd, FlowKey.mk.injEq] at h
    exact ⟨Or.inl ⟨h.1, h.2.1⟩, h.2.2⟩
  · rw [canonical_of_le hab, canonical_of_lt hcd, FlowKey.mk.injEq] at h
    exact ⟨Or.inr ⟨h.1, h.2.1⟩, h.2.2⟩
  · rw [canonical_of_lt hab, canonical_of_le hcd, FlowKey.mk.injEq] at h
    exact ⟨Or.inr ⟨h.2.1, h.1⟩, h.2.2⟩
  · rw [canonical_of_lt hab, canonical_of_lt hcd, FlowKey.mk.injEq] at h
    exact ⟨Or.inl ⟨h.2.1, h.1⟩, h.2.2⟩

variable (a b : Endpoint) (proto : Protocol)

/-- The key is canonical. -/
theorem canonical_canonical : (canonical a b proto).1.Canonical := by
  rcases le_or_gt a b with hab | hab
  · rw [canonical_of_le hab]
    exact hab
  · rw [canonical_of_lt hab]
    exact hab.le

/-- The two orders of different endpoints are told apart. -/
theorem canonical_dir_ne {a b : Endpoint} (hne : a ≠ b) :
    (canonical a b proto).2 ≠ (canonical b a proto).2 := by
  rcases lt_or_gt_of_ne hne with hab | hab
  · rw [canonical_of_le hab.le, canonical_of_lt hab]
    exact nofun
  · rw [canonical_of_lt hab, canonical_of_le hab.le]
    exact nofun

/-- Only different endpoints are turned round. -/
theorem low_ne_high_of_reverse {a b : Endpoint} (h : (canonical a b proto).2 = .reverse) :
    (canonical a b proto).1.low ≠ (canonical a b proto).1.high := by
  rcases le_or_gt a b with hab | hab
  · rw [canonical_of_le hab] at h
    cases h
  · rw [canonical_of_lt hab]
    exact hab.ne

/-- Keys are equal for the same pair of endpoints. -/
theorem canonical_key_eq_iff {a b c d : Endpoint} {p q : Protocol} :
    (canonical a b p).1 = (canonical c d q).1 ↔ p = q ∧ ({a, b} : Set Endpoint) = {c, d} := by
  rw [Set.pair_eq_pair_iff]
  constructor
  · intro h
    exact (canonical_inj h).symm
  · rintro ⟨rfl, ⟨rfl, rfl⟩ | ⟨rfl, rfl⟩⟩
    · rfl
    · exact canonical_comm a b p

end FlowKey

/-! ## Observed packets -/

/-- The packet was built from an observed pair of endpoints. -/
def PacketMeta.Observed (p : PacketMeta) : Prop :=
  ∃ src dst, FlowKey.canonical src dst p.key.proto = (p.key, p.dir)

/-- Sender and receiver are read off key and direction. -/
theorem endpoints_of_canonical {p : PacketMeta} {src dst : Endpoint}
    (h : FlowKey.canonical src dst p.key.proto = (p.key, p.dir)) : endpoints p = (src, dst) := by
  have hkey := congrArg Prod.fst h
  have hdir := congrArg Prod.snd h
  simp only at hkey hdir
  rw [endpoints, ← hkey, ← hdir]
  rcases le_or_gt src dst with hle | hlt
  · rw [FlowKey.canonical_of_le hle]
  · rw [FlowKey.canonical_of_lt hlt]

/-- A packet that was observed has a canonical key. -/
theorem PacketMeta.Observed.canonical {p : PacketMeta} (h : p.Observed) : p.key.Canonical := by
  obtain ⟨src, dst, h⟩ := h
  have hkey := congrArg Prod.fst h
  simp only at hkey
  rw [← hkey]
  exact FlowKey.canonical_canonical src dst _

/-- **The key is the unordered pair.**  Both orders of two endpoints have one key, with its own
endpoints in order; the directions tell the orders of different endpoints apart; keys are equal
exactly for the same pair and protocol; and a packet with the key and the direction was observed
between just these endpoints, in this order. -/
theorem canonical_faithful (a b c d : Endpoint) (p q : Protocol) :
    (FlowKey.canonical a b p).1 = (FlowKey.canonical b a p).1 ∧
    (FlowKey.canonical a b p).1.low ≤ (FlowKey.canonical a b p).1.high ∧
    (a ≠ b → (FlowKey.canonical a b p).2 ≠ (FlowKey.canonical b a p).2) ∧
    ((FlowKey.canonical a b p).1 = (FlowKey.canonical c d q).1 ↔
      p = q ∧ ({a, b} : Set Endpoint) = {c, d}) ∧
    ∀ pkt : PacketMeta, (pkt.key, pkt.dir) = FlowKey.canonical a b p →
      endpoints pkt = (a, b) := by
  refine ⟨FlowKey.canonical_comm a b p, FlowKey.canonical_canonical a b p,
    FlowKey.canonical_dir_ne p, FlowKey.canonical_key_eq_iff, ?_⟩
  intro pkt h
  have hproto : pkt.key.proto = p := by
    rw [← FlowKey.canonical_proto a b p, ← h]
  apply endpoints_of_canonical
  rw [hproto, h]
