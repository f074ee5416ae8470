/-
# Computations on slices that may give up or panic

The outcome of code that reads a byte slice: a value, a deliberate rejection
(an early `return None`, or `?` on a failed lookup), or a panic (an index or a
slice out of range, a subtraction below zero, an overflow).  Keeping the last
two apart lets a theorem say which reads are guarded.

The checked lookups (`getFrom`, `getByte`, `getRange`) reject; the bare ones
(`index`, `sliceFrom`, `slice`) panic.  Each has one lemma for the case that its
range is in bounds.  Sizes are 64-bit.
-/
import L4Scope.ByteString

/-- What a computation on slices comes to. -/
inductive Outcome (α : Type) where
  | value (a : α)
  | reject
  | panic
  deriving DecidableEq

namespace Outcome

variable {α β : Type}

/-- Goes on with a value only. -/
def bind : Outcome α → (α → Outcome β) → Outcome β
  | value a, f => f a
  | reject, _ => reject
  | panic, _ => panic

instance : Monad Outcome where
  pure := value
  bind := bind

@[simp] theorem pure_eq (a : α) : (pure a : Outcome α) = value a := rfl

@[simp] theorem value_bind (a : α) (f : α → Outcome β) : (value a >>= f) = f a := rfl

@[simp] theorem reject_bind (f : α → Outcome β) : (reject >>= f) = reject := rfl

@[simp] theorem panic_bind (f : α → Outcome β) : (panic >>= f) = panic := rfl

/-- Behind a check that rejects. -/
theorem ite_reject_eq_value {P : Prop} [Decidable P] {x : Outcome α} {a : α} :
    (if P then reject else x) = value a ↔ ¬ P ∧ x = value a := by
  by_cases hP : P
  · simp [hP]
  · simp [hP]

/-- Sequencing is associative. -/
theorem bind_assoc {γ : Type} (x : Outcome α) (f : α → Outcome β) (g : β → Outcome γ) :
    (x >>= f >>= g) = x >>= fun a => f a >>= g := by
  cases x <;> rfl

/-! ## Computations that do not panic -/

/-- The computation does not panic, and what it returns satisfies `P`. -/
def Ensures (x : Outcome α) (P : α → Prop) : Prop :=
  match x with
  | value a => P a
  | reject => True
  | panic => False

/-- What ensures something does not panic. -/
theorem Ensures.ne_panic {x : Outcome α} {P : α → Prop} (h : x.Ensures P) : x ≠ panic := by
  rintro rfl
  exact h

/-- A weaker property. -/
theorem Ensures.imp {x : Outcome α} {P Q : α → Prop} (h : x.Ensures P) (hpq : ∀ a, P a → Q a) :
    x.Ensures Q := by
  cases x with
  | value a => exact hpq a h
  | reject => trivial
  | panic => exact h

/-- One step after the other. -/
theorem Ensures.bind {x : Outcome α} {f : α → Outcome β} {P : α → Prop} {Q : β → Prop}
    (h : x.Ensures P) (hf : ∀ a, P a → (f a).Ensures Q) : (x >>= f).Ensures Q := by
  cases x with
  | value a => exact hf a h
  | reject => exact h
  | panic => exact h

/-- A computation that does not panic, read as an `Option`. -/
def toOption : (x : Outcome α) → x ≠ panic → Option α
  | value a, _ => some a
  | reject, _ => none
  | panic, h => absurd rfl h

/-- The value that comes out has the property. -/
theorem Ensures.of_toOption {x : Outcome α} {P : α → Prop} (h : x.Ensures P) {hne : x ≠ panic}
    {a : α} (ha : x.toOption hne = some a) : P a := by
  cases x with
  | value b =>
      cases ha
      exact h
  | reject => cases ha
  | panic => exact absurd rfl hne

end Outcome

open Outcome

/-! ## Checked lookups -/

/-- `d.get(off..)`. -/
def getFrom (d : Bytes) (off : ℕ) : Outcome Bytes :=
  if off ≤ d.length then value (d.drop off) else reject

/-- `d.get(off)`. -/
def getByte (d : Bytes) (off : ℕ) : Outcome UInt8 :=
  if off < d.length then value (byteAt d off) else reject

/-- `d.get(lo..hi)`. -/
def getRange (d : Bytes) (lo hi : ℕ) : Outcome Bytes :=
  if lo ≤ hi ∧ hi ≤ d.length then value ((d.take hi).drop lo) else reject

/-! ## Bare lookups -/

/-- `&d[off..]`. -/
def sliceFrom (d : Bytes) (off : ℕ) : Outcome Bytes :=
  if off ≤ d.length then value (d.drop off) else panic

/-- `d[off]`. -/
def index (d : Bytes) (off : ℕ) : Outcome UInt8 :=
  if off < d.length then value (byteAt d off) else panic

/-- `&d[lo..hi]`. -/
def slice (d : Bytes) (lo hi : ℕ) : Outcome Bytes :=
  if lo ≤ hi ∧ hi ≤ d.length then value ((d.take hi).drop lo) else panic

/-- `copy_from_slice` into an array of `n` bytes: the lengths must agree. -/
def copyFromSlice (n : ℕ) (b : Bytes) : Outcome (Octets n) :=
  if h : b.length = n then value ⟨b, h⟩ else panic

/-! ## Checked arithmetic on sizes -/

/-- Addition of `usize`, which panics on overflow. -/
def uadd (a b : ℕ) : Outcome ℕ := if a + b < 2 ^ 64 then value (a + b) else panic

/-- Multiplication of `usize`, which panics on overflow. -/
def umul (a b : ℕ) : Outcome ℕ := if a * b < 2 ^ 64 then value (a * b) else panic

/-- Subtraction of `usize`, which panics below zero. -/
def usub (a b : ℕ) : Outcome ℕ := if b ≤ a then value (a - b) else panic

/-! ## In bounds -/

section InBounds

variable {d : Bytes} {off : ℕ}

/-- A rest inside the data. -/
theorem getFrom_of_le (h : off ≤ d.length) : getFrom d off = value (d.drop off) := if_pos h

/-- A byte inside the data. -/
theorem getByte_of_lt (h : off < d.length) : getByte d off = value (byteAt d off) := if_pos h

/-- A slice inside the data does not panic. -/
theorem sliceFrom_of_le (h : off ≤ d.length) : sliceFrom d off = value (d.drop off) := if_pos h

/-- Nor does an index. -/
theorem index_of_lt (h : off < d.length) : index d off = value (byteAt d off) := if_pos h

/-- A range in bounds, copied into an array, is the bytes at its offset. -/
theorem copyFromSlice_slice (d : Bytes) (off n : ℕ) (h : off + n ≤ d.length) :
    (slice d off (off + n) >>= copyFromSlice n) = value (octetsAt n d off) := by
  have hlen : ((d.take (off + n)).drop off).length = n := by
    rw [List.length_drop, List.length_take]
    omega
  rw [slice, if_pos ⟨by omega, h⟩, value_bind, copyFromSlice, dif_pos hlen]
  congr 1
  apply Subtype.ext
  apply List.ext_getElem
  · rw [hlen, (octetsAt n d off).2]
  · intro i hi _
    have hin : i < n := by rw [← hlen]; exact hi
    simp only [octetsAt, List.getElem_map, List.getElem_range, List.getElem_drop,
      List.getElem_take]
    rw [byteAt_eq_getElem (by omega)]

/-- A checked rest never panics. -/
theorem ensures_getFrom (d : Bytes) (off : ℕ) :
    (getFrom d off).Ensures fun b => off ≤ d.length ∧ b = d.drop off := by
  by_cases h : off ≤ d.length
  · rw [getFrom, if_pos h]
    exact ⟨h, rfl⟩
  · rw [getFrom, if_neg h]
    trivial

/-- Nor does a checked byte. -/
theorem ensures_getByte (d : Bytes) (off : ℕ) : (getByte d off).Ensures fun _ => True := by
  rw [getByte]
  split <;> trivial

/-- Nor does a checked range. -/
theorem ensures_getRange (d : Bytes) (lo hi : ℕ) :
    (getRange d lo hi).Ensures fun b => b.length = hi - lo := by
  by_cases h : lo ≤ hi ∧ hi ≤ d.length
  · rw [getRange, if_pos h]
    simp only [Ensures, List.length_drop, List.length_take]
    omega
  · rw [getRange, if_neg h]
    trivial

theorem uadd_of_lt {a b : ℕ} (h : a + b < 2 ^ 64) : uadd a b = value (a + b) := if_pos h

theorem umul_of_lt {a b : ℕ} (h : a * b < 2 ^ 64) : umul a b = value (a * b) := if_pos h

theorem usub_of_le {a b : ℕ} (h : b ≤ a) : usub a b = value (a - b) := if_pos h

end InBounds

/-! ## Big-endian fields -/

/-- The big-endian 16-bit number at the start of a slice. -/
def be16 (b : Bytes) : Outcome UInt16 := do
  let b0 ← getByte b 0
  let b1 ← getByte b 1
  return .ofNat (beNat [b0, b1])

/-- The big-endian 32-bit number at the start of a slice. -/
def be32 (b : Bytes) : Outcome UInt32 := do
  let b0 ← getByte b 0
  let b1 ← getByte b 1
  let b2 ← getByte b 2
  let b3 ← getByte b 3
  return .ofNat (beNat [b0, b1, b2, b3])

/-- The 16-bit number at an offset. -/
def be16At (d : Bytes) (off : ℕ) : UInt16 := .ofNat (beAt 2 d off)

/-- The 32-bit number at an offset. -/
def be32At (d : Bytes) (off : ℕ) : UInt32 := .ofNat (beAt 4 d off)

/-- The number of two bytes. -/
theorem toNat_be16At (d : Bytes) (off : ℕ) : (be16At d off).toNat = beAt 2 d off :=
  UInt16.toNat_ofNat_of_lt' (beAt_lt 2 d off)

/-- Cutting behind a number keeps it. -/
theorem be16At_take {d : Bytes} {off n : ℕ} (h : off + 2 ≤ n) :
    be16At (d.take n) off = be16At d off := by
  rw [be16At, beAt_take d h, ← be16At]

/-- A word inside a prefix. -/
theorem be32At_take {d : Bytes} {off n : ℕ} (h : off + 4 ≤ n) :
    be32At (d.take n) off = be32At d off := by
  rw [be32At, beAt_take d h, ← be32At]

/-- A half word at the start of the second part. -/
theorem be16At_append {a : Bytes} {off : ℕ} (c : Bytes) (h : a.length = off) :
    be16At (a ++ c) off = be16At c 0 := by
  rw [be16At, beAt_append 2 c h, ← be16At]

/-- A word at the start of the second part. -/
theorem be32At_append {a : Bytes} {off : ℕ} (c : Bytes) (h : a.length = off) :
    be32At (a ++ c) off = be32At c 0 := by
  rw [be32At, beAt_append 4 c h, ← be32At]

/-- A number is read back at the front. -/
theorem be16At_self (x : UInt16) (c : Bytes) : be16At (beBytes 2 x.toNat ++ c) 0 = x := by
  rw [be16At, beAt_self c (show x.toNat < 256 ^ 2 from x.toNat_lt), UInt16.ofNat_toNat]

/-- A word is read back. -/
theorem be32At_self (x : UInt32) (c : Bytes) : be32At (beBytes 4 x.toNat ++ c) 0 = x := by
  rw [be32At, beAt_self c (show x.toNat < 256 ^ 4 from x.toNat_lt), UInt32.ofNat_toNat]

/-- A half word inside the data. -/
theorem be16_drop {d : Bytes} {off : ℕ} (h : off + 2 ≤ d.length) :
    be16 (d.drop off) = value (be16At d off) := by
  have hlen : (d.drop off).length = d.length - off := List.length_drop
  rw [be16, getByte_of_lt (by omega), getByte_of_lt (by omega)]
  simp only [byteAt_drop]
  rfl

/-- A word inside the data. -/
theorem be32_drop {d : Bytes} {off : ℕ} (h : off + 4 ≤ d.length) :
    be32 (d.drop off) = value (be32At d off) := by
  have hlen : (d.drop off).length = d.length - off := List.length_drop
  rw [be32, getByte_of_lt (by omega), getByte_of_lt (by omega), getByte_of_lt (by omega),
    getByte_of_lt (by omega)]
  simp only [byteAt_drop]
  rfl

/-- A half word that is cut off. -/
theorem be16_drop_of_lt {d : Bytes} {off : ℕ} (h : d.length < off + 2) :
    be16 (d.drop off) = reject := by
  have hlen : (d.drop off).length = d.length - off := List.length_drop
  by_cases h0 : 0 < (d.drop off).length
  · rw [be16, getByte_of_lt h0, value_bind, getByte, if_neg (by omega)]
    rfl
  · rw [be16, getByte, if_neg h0]
    rfl
