/-
# Byte strings and big-endian numbers

General facts about lists of bytes, used wherever a wire format is decoded:
the byte at an offset (`byteAt`), the big-endian number a list of bytes spells
(`beNat`) and the bytes that spell a number (`beBytes`), with their round trip
`beNat_beBytes`.
-/
import Mathlib.Data.List.Induction
import Mathlib.Tactic.Ring
import Mathlib.Tactic.Linarith

/-- A string of bytes. -/
abbrev Bytes := List UInt8

/-- A byte array of the fixed length `n`. -/
abbrev Octets (n : ℕ) := { o : Bytes // o.length = n }

/-! ## The byte at an offset -/

/-- The byte at offset `i`, and `0` past the end. -/
def byteAt (b : Bytes) (i : ℕ) : UInt8 := b.getD i 0

/-- Inside the string it is indexing. -/
theorem byteAt_eq_getElem {b : Bytes} {i : ℕ} (h : i < b.length) : byteAt b i = b[i] := by
  simp [byteAt, h]

/-- Behind a prefix. -/
theorem byteAt_drop (b : Bytes) (n i : ℕ) : byteAt (b.drop n) i = byteAt b (n + i) := by
  simp [byteAt, List.getD_eq_getElem?_getD]

/-- In the first part. -/
theorem byteAt_append_left {a b : Bytes} {i : ℕ} (h : i < a.length) :
    byteAt (a ++ b) i = byteAt a i := by
  rw [byteAt_eq_getElem h, byteAt_eq_getElem (by simp; omega), List.getElem_append_left h]

/-- In the second part. -/
theorem byteAt_append_right {a b : Bytes} {i : ℕ} (h : a.length ≤ i) :
    byteAt (a ++ b) i = byteAt b (i - a.length) := by
  simp [byteAt, List.getD_eq_getElem?_getD, List.getElem?_append_right h]

/-- Cutting a string keeps every byte before the cut. -/
theorem byteAt_take {b : Bytes} {n i : ℕ} (h : i < n) : byteAt (b.take n) i = byteAt b i := by
  simp [byteAt, List.getD_eq_getElem?_getD, List.getElem?_take_of_lt h]

/-! ## Big-endian numbers -/

/-- The number a list of bytes spells, most significant byte first. -/
def beNat (b : Bytes) : ℕ := b.foldl (fun acc x => acc * 256 + x.toNat) 0

/-- The last `n` base-256 digits of `x`, most significant first. -/
def beBytes : ℕ → ℕ → Bytes
  | 0, _ => []
  | n + 1, x => beBytes n (x / 256) ++ [UInt8.ofNat (x % 256)]

@[simp] theorem length_beBytes (n x : ℕ) : (beBytes n x).length = n := by
  induction n generalizing x with
  | zero => rfl
  | succ n ih => simp [beBytes, ih]

@[simp] theorem beNat_nil : beNat [] = 0 := rfl

/-- The last byte counts ones. -/
theorem beNat_concat (b : Bytes) (x : UInt8) : beNat (b ++ [x]) = beNat b * 256 + x.toNat := by
  simp [beNat, List.foldl_append]

/-- The bytes that spell a number spell that number back. -/
theorem beNat_beBytes (n x : ℕ) (h : x < 256 ^ n) : beNat (beBytes n x) = x := by
  induction n generalizing x with
  | zero => simp only [pow_zero, Nat.lt_one_iff] at h; simp [beBytes, h]
  | succ n ih =>
      have hdiv : x / 256 < 256 ^ n := by
        rw [Nat.div_lt_iff_lt_mul (by norm_num)]
        rwa [pow_succ] at h
      rw [beBytes, beNat_concat, ih _ hdiv]
      simp
      omega

/-- `n` bytes hold less than `256 ^ n`. -/
theorem beNat_lt (b : Bytes) : beNat b < 256 ^ b.length := by
  induction b using List.reverseRecOn with
  | nil => simp
  | append_singleton b x ih =>
      have hx := x.toNat_lt
      rw [beNat_concat, List.length_append, List.length_singleton, pow_succ]
      omega

/-- Equally long strings spell the same number only if they are the same. -/
theorem beNat_inj {a b : Bytes} (hlen : a.length = b.length) (h : beNat a = beNat b) : a = b := by
  induction a using List.reverseRecOn generalizing b with
  | nil => exact (List.length_eq_zero_iff.1 hlen.symm).symm
  | append_singleton a x ih =>
      cases b using List.reverseRecOn with
      | nil => simp at hlen
      | append_singleton b y =>
          have hx := x.toNat_lt
          have hy := y.toNat_lt
          rw [beNat_concat, beNat_concat] at h
          rw [List.length_append, List.length_append] at hlen
          have hxy : x = y := by
            apply UInt8.toNat_inj.1
            omega
          rw [ih (Nat.add_right_cancel hlen) (by omega), hxy]

/-! ## Fields at an offset -/

/-- The `n` bytes from offset `off` on, with `0` past the end. -/
def octetsAt (n : ℕ) (b : Bytes) (off : ℕ) : Octets n :=
  ⟨(List.range n).map fun i => byteAt b (off + i), by simp⟩

/-- The big-endian number in the `n` bytes from offset `off` on. -/
def beAt (n : ℕ) (b : Bytes) (off : ℕ) : ℕ := beNat (octetsAt n b off).1

/-- Octets depend on their bytes only. -/
theorem octetsAt_congr {n off off' : ℕ} {b b' : Bytes}
    (h : ∀ i < n, byteAt b (off + i) = byteAt b' (off' + i)) :
    octetsAt n b off = octetsAt n b' off' := by
  apply Subtype.ext
  apply List.map_congr_left
  intro i hi
  exact h i (List.mem_range.1 hi)

/-- Octets behind a prefix. -/
theorem octetsAt_drop (n : ℕ) (b : Bytes) (k off : ℕ) :
    octetsAt n (b.drop k) off = octetsAt n b (k + off) := by
  apply octetsAt_congr
  intro i _
  rw [byteAt_drop, Nat.add_assoc]

/-- Octets inside a prefix. -/
theorem octetsAt_take {n k off : ℕ} (b : Bytes) (h : off + n ≤ k) :
    octetsAt n (b.take k) off = octetsAt n b off := by
  apply octetsAt_congr
  intro i hi
  exact byteAt_take (by omega)

/-- Reading at the end of the first string of two is reading the second. -/
theorem octetsAt_append {a : Bytes} {off : ℕ} (n : ℕ) (c : Bytes) (h : a.length = off) :
    octetsAt n (a ++ c) off = octetsAt n c 0 := by
  apply octetsAt_congr
  intro i _
  rw [byteAt_append_right (by omega)]
  congr 1
  omega

/-- A string is read back at the front. -/
theorem octetsAt_self {n : ℕ} (o : Octets n) (c : Bytes) : octetsAt n (o.1 ++ c) 0 = o := by
  obtain ⟨o, rfl⟩ := o
  apply Subtype.ext
  apply List.ext_getElem
  · simp [octetsAt]
  · intro i h _
    simp only [octetsAt, List.length_map, List.length_range] at h
    simp only [octetsAt, List.getElem_map, List.getElem_range]
    rw [Nat.zero_add, byteAt_append_left h, byteAt_eq_getElem h]

/-- The first bytes of a string that is long enough. -/
theorem octetsAt_zero {n : ℕ} {b : Bytes} (h : n ≤ b.length) : (octetsAt n b 0).1 = b.take n := by
  have hself := octetsAt_self ⟨b.take n, List.length_take_of_le h⟩ (b.drop n)
  rw [List.take_append_drop] at hself
  rw [hself]

/-- A number of `n` bytes is less than `256 ^ n`. -/
theorem beAt_lt (n : ℕ) (b : Bytes) (off : ℕ) : beAt n b off < 256 ^ n := by
  have h := beNat_lt (octetsAt n b off).1
  rwa [(octetsAt n b off).2] at h

/-- A number behind a prefix. -/
theorem beAt_drop (n : ℕ) (b : Bytes) (k off : ℕ) : beAt n (b.drop k) off = beAt n b (k + off) := by
  rw [beAt, octetsAt_drop, ← beAt]

/-- A number inside a prefix. -/
theorem beAt_take {n k off : ℕ} (b : Bytes) (h : off + n ≤ k) :
    beAt n (b.take k) off = beAt n b off := by
  rw [beAt, octetsAt_take b h, ← beAt]

/-- A number at the start of the second part. -/
theorem beAt_append {a : Bytes} {off : ℕ} (n : ℕ) (c : Bytes) (h : a.length = off) :
    beAt n (a ++ c) off = beAt n c 0 := by
  rw [beAt, octetsAt_append n c h, ← beAt]

/-- A number is read back at the front. -/
theorem beAt_self {n x : ℕ} (c : Bytes) (h : x < 256 ^ n) : beAt n (beBytes n x ++ c) 0 = x := by
  rw [beAt, octetsAt_self ⟨beBytes n x, length_beBytes n x⟩ c]
  exact beNat_beBytes n x h
