/-
# Reading from a source that delivers its bytes in pieces

A source of bytes is the list of what its successive reads find: a piece of the data, an
interruption, a failure; when the list is empty the data has ended, for good.  A read with
room for fewer bytes than the piece in front takes what fits and leaves the rest.

`fill` is the loop that reads until a buffer is full.  Its spec lemmas, `fill_full` and
`fill_ended`, say that for a source that `Delivers` a byte string without failing, the loop
sees the byte string and not the pieces.
-/
import L4Scope.ByteString

variable {ε : Type}

/-! ## Sources -/

/-- What one read finds. -/
inductive Delivery (ε : Type) where
  | chunk (b : Bytes) (h : b ≠ [])
  | interrupted
  | failed (e : ε)
  deriving DecidableEq

/-- A source: what its reads find, in order. -/
abbrev Source (ε : Type) := List (Delivery ε)

/-- What one call of `read` answers; no bytes means the end of the data. -/
inductive Answer (ε : Type) where
  | bytes (b : Bytes)
  | interrupted
  | failed (e : ε)
  deriving DecidableEq

/-- How filling a buffer ends: with the buffer full, with the data at its end after the bytes
so far, or with a failure. -/
inductive Filled (ε : Type) where
  | full (buf : Bytes)
  | ended (buf : Bytes)
  | failed (e : ε)
  deriving DecidableEq

namespace Source

/-- Put back what is left of a piece. -/
def pushBack (b : Bytes) (src : Source ε) : Source ε :=
  if h : b ≠ [] then .chunk b h :: src else src

/-- One call of `read` with room for `room` bytes. -/
def read (room : ℕ) : Source ε → Answer ε × Source ε
  | [] => (.bytes [], [])
  | .chunk b _ :: src => (.bytes (b.take room), pushBack (b.drop room) src)
  | .interrupted :: src => (.interrupted, src)
  | .failed e :: src => (.failed e, src)

/-- The reads a source can still answer before its end, at one byte a read. -/
def work : Source ε → ℕ
  | [] => 0
  | .chunk b _ :: src => b.length + work src
  | .interrupted :: src => 1 + work src
  | .failed _ :: src => 1 + work src

/-- The bytes of a source. -/
def bytes : Source ε → Bytes
  | [] => []
  | .chunk b _ :: src => b ++ bytes src
  | .interrupted :: src => bytes src
  | .failed _ :: src => bytes src

/-- A source that delivers the byte string `bs` and never fails. -/
structure Delivers (src : Source ε) (bs : Bytes) : Prop where
  bytes_eq : src.bytes = bs
  sound : ∀ e, .failed e ∉ src

/-! ## One read -/

/-- Bytes that are put back have to be read again. -/
theorem work_pushBack (b : Bytes) (src : Source ε) :
    work (pushBack b src) = b.length + work src := by
  by_cases h : b = []
  · simp [pushBack, h]
  · simp [pushBack, h, work]

/-- Away from the end of the data, a read leaves less to do. -/
theorem work_read_lt {room : ℕ} (hroom : 0 < room) {src : Source ε} (hsrc : src ≠ []) :
    work (read room src).2 < work src := by
  cases src with
  | nil => exact absurd rfl hsrc
  | cons d src =>
      cases d with
      | chunk b h =>
          have hb : 0 < b.length := List.length_pos_iff.2 h
          rw [read, work_pushBack, List.length_drop, work]
          omega
      | interrupted => show work src < 1 + work src; omega
      | failed e => show work src < 1 + work src; omega

/-- A read that does not find the end of the data leaves less to do. -/
theorem work_of_read {room : ℕ} {src src' : Source ε} {a : Answer ε}
    (h : read room src = (a, src')) (hroom : 0 < room) (ha : a ≠ .bytes []) :
    work src' < work src := by
  have hne : src ≠ [] := by
    rintro rfl
    apply ha
    rw [read, Prod.mk.injEq] at h
    exact h.1.symm
  have hlt := work_read_lt hroom hne
  rwa [h] at hlt

namespace Delivers

variable {src : Source ε} {bs : Bytes}

/-- An empty source delivers nothing. -/
theorem nil : Delivers ([] : Source ε) [] := ⟨rfl, by simp⟩

/-- Behind its first delivery a source is one too. -/
theorem tail {d : Delivery ε} (h : Delivers (d :: src) bs) : Delivers src (bytes src) :=
  ⟨rfl, fun e he => h.sound e (List.mem_cons_of_mem d he)⟩

/-- Bytes that are put back come first. -/
theorem pushBack (b : Bytes) (h : Delivers src bs) : Delivers (pushBack b src) (b ++ bs) := by
  by_cases hb : b = []
  · rw [Source.pushBack, dif_neg (not_not.2 hb), hb]
    exact h
  · rw [Source.pushBack, dif_pos hb]
    constructor
    · rw [Source.bytes, h.bytes_eq]
    · simpa using h.sound

variable {src' : Source ε} {room : ℕ}

/-- A read that answers with bytes takes them off the front of the data; it answers with
none only at the end. -/
theorem of_bytes {b : Bytes} (h : Delivers src bs) (hroom : 0 < room)
    (hread : read room src = (.bytes b, src')) :
    b.length ≤ room ∧ (b = [] → bs = []) ∧ ∃ rest, bs = b ++ rest ∧ Delivers src' rest := by
  cases src with
  | nil =>
      rw [read, Prod.mk.injEq, Answer.bytes.injEq] at hread
      obtain ⟨rfl, rfl⟩ := hread
      have hbs : bs = [] := h.bytes_eq.symm
      exact ⟨Nat.zero_le room, fun _ => hbs, [], hbs, nil⟩
  | cons d src =>
      cases d with
      | chunk c hc =>
          rw [read, Prod.mk.injEq, Answer.bytes.injEq] at hread
          obtain ⟨rfl, rfl⟩ := hread
          refine ⟨List.length_take_le _ _, ?_, c.drop room ++ bytes src, ?_, h.tail.pushBack _⟩
          · intro hnone
            rcases List.take_eq_nil_iff.1 hnone with hzero | hempty
            · exact absurd hzero (Nat.pos_iff_ne_zero.1 hroom)
            · exact absurd hempty hc
          · rw [← List.append_assoc, List.take_append_drop, ← h.bytes_eq, Source.bytes]
      | interrupted => cases hread
      | failed e => cases hread

/-- An interrupted read takes nothing. -/
theorem of_interrupted (h : Delivers src bs) (hread : read room src = (.interrupted, src')) :
    Delivers src' bs := by
  cases src with
  | nil => cases hread
  | cons d src =>
      cases d with
      | chunk c hc => cases hread
      | interrupted =>
          cases hread
          rw [← h.bytes_eq, Source.bytes]
          exact h.tail
      | failed e => cases hread

/-- A source that delivers does not fail. -/
theorem not_failed {e : ε} (h : Delivers src bs) : read room src ≠ (.failed e, src') := by
  intro hread
  cases src with
  | nil => cases hread
  | cons d src =>
      cases d with
      | chunk c hc => cases hread
      | interrupted => cases hread
      | failed e => exact h.sound e List.mem_cons_self

end Delivers

/-! ## Filling a buffer -/

/-- Read until the buffer, so far `buf`, holds `want` bytes; an interrupted read is tried
again. -/
def fill (want : ℕ) (buf : Bytes) (src : Source ε) : Filled ε × Source ε :=
  if _hroom : buf.length < want then
    match _hread : read (want - buf.length) src with
    | (.bytes [], src') => (.ended buf, src')
    | (.bytes (b :: bs), src') => fill want (buf ++ b :: bs) src'
    | (.interrupted, src') => fill want buf src'
    | (.failed e, src') => (.failed e, src')
  else (.full buf, src)
termination_by work src
decreasing_by
  all_goals exact work_of_read _hread (Nat.sub_pos_of_lt _hroom) (by simp)

/-- Filling up a buffer that is not full takes some work. -/
theorem work_fill_lt {want : ℕ} {buf b : Bytes} {src src' : Source ε} (hroom : buf.length < want)
    (h : fill want buf src = (.full b, src')) : work src' < work src := by
  fun_induction fill want buf src with
  | case1 => simp at h
  | case2 buf src hroom c cs src'' hread ih =>
      have hlt := work_of_read hread (Nat.sub_pos_of_lt hroom) (by simp)
      by_cases hroom' : (buf ++ c :: cs).length < want
      · exact (ih hroom' h).trans hlt
      · rw [fill, dif_neg hroom', Prod.mk.injEq] at h
        rwa [← h.2]
  | case3 buf src hroom src'' hread ih =>
      exact (ih hroom h).trans (work_of_read hread (Nat.sub_pos_of_lt hroom) (by simp))
  | case4 => simp at h
  | case5 buf src hfull => exact absurd hroom hfull

section FillSpec

variable {src : Source ε} {bs buf : Bytes} {want : ℕ}

/-- What filling makes of the data: the buffer takes the first bytes, or all there are. -/
theorem fill_spec (h : Delivers src bs) (hbuf : buf.length ≤ want) :
    ∃ src', Delivers src' (bs.drop (want - buf.length)) ∧
      fill want buf src
        = (if want ≤ buf.length + bs.length then .full (buf ++ bs.take (want - buf.length))
            else .ended (buf ++ bs), src') := by
  fun_induction fill want buf src generalizing bs with
  | case1 buf src hroom src' hread =>
      obtain ⟨-, hend, rest, hbs, hrest⟩ := h.of_bytes (Nat.sub_pos_of_lt hroom) hread
      obtain rfl := hend rfl
      obtain rfl : [] = rest := hbs
      refine ⟨src', ?_, ?_⟩
      · rwa [List.drop_nil]
      · rw [if_neg (by simpa using hroom), List.append_nil]
  | case2 buf src hroom c cs src' hread ih =>
      obtain ⟨hlen, -, rest, rfl, hrest⟩ := h.of_bytes (Nat.sub_pos_of_lt hroom) hread
      have hle : (buf ++ c :: cs).length ≤ want := by
        rw [List.length_append]
        omega
      -- the piece goes from the front of the data to the end of the buffer
      obtain ⟨src'', hsrc'', hfill⟩ := ih hrest hle
      have hsplit : want - buf.length = (c :: cs).length + (want - (buf ++ c :: cs).length) := by
        rw [List.length_append] at hle ⊢
        omega
      refine ⟨src'', ?_, ?_⟩
      · rwa [hsplit, List.drop_length_add_append]
      · rw [hfill, hsplit, List.take_length_add_append]
        simp only [List.length_append, List.append_assoc, Nat.add_assoc]
  | case3 buf src hroom src' hread ih => exact ih (h.of_interrupted hread) hbuf
  | case4 buf src hroom e src' hread => exact absurd hread h.not_failed
  | case5 buf src hfull =>
      have hwant : want = buf.length := by omega
      refine ⟨src, ?_, ?_⟩
      · simpa [hwant] using h
      · rw [if_pos (by omega)]
        simp [hwant]

/-- With enough bytes in the data, an empty buffer takes the first of them. -/
theorem fill_full (h : Delivers src bs) (hbs : want ≤ bs.length) :
    ∃ src', fill want [] src = (.full (bs.take want), src') ∧ Delivers src' (bs.drop want) := by
  have hbuf : ([] : Bytes).length ≤ want := Nat.zero_le want
  obtain ⟨src', hsrc', hfill⟩ := fill_spec h hbuf
  refine ⟨src', ?_, ?_⟩
  · simpa [hbs] using hfill
  · simpa using hsrc'

/-- With too few, the data ends in the buffer. -/
theorem fill_ended (h : Delivers src bs) (hbs : bs.length < want) :
    ∃ src', fill want [] src = (.ended bs, src') := by
  have hbuf : ([] : Bytes).length ≤ want := Nat.zero_le want
  obtain ⟨src', _, hfill⟩ := fill_spec h hbuf
  refine ⟨src', ?_⟩
  simpa [Nat.not_le.2 hbs] using hfill

end FillSpec

end Source
