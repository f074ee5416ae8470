/-
# The Collector's reply

After the request is written, `post` reads once and takes the second word of what it gets for the
status.  It says no more than the part of the reply that this read returns: the push counts as
failed exactly if the read reaches the status and the status does not start with a 2
(`Otlp.post_reply`).
-/
import L4Scope.OtlpPush

/-! ## Text of bytes that may not be UTF-8 -/

/-- The ranges of the bytes behind the first byte of a character of two bytes or more; none if no
such character starts with it. -/
def continuations (b : UInt8) : List (UInt8 × UInt8) :=
  if 0xc2 ≤ b ∧ b ≤ 0xdf then [(0x80, 0xbf)]
  else if b = 0xe0 then [(0xa0, 0xbf), (0x80, 0xbf)]
  else if b = 0xed then [(0x80, 0x9f), (0x80, 0xbf)]
  else if 0xe1 ≤ b ∧ b ≤ 0xef then [(0x80, 0xbf), (0x80, 0xbf)]
  else if b = 0xf0 then [(0x90, 0xbf), (0x80, 0xbf), (0x80, 0xbf)]
  else if 0xf1 ≤ b ∧ b ≤ 0xf3 then [(0x80, 0xbf), (0x80, 0xbf), (0x80, 0xbf)]
  else if b = 0xf4 then [(0x80, 0x8f), (0x80, 0xbf), (0x80, 0xbf)]
  else []

/-- How many of the bytes lie in the ranges, before the first that does not. -/
def matched (ranges : List (UInt8 × UInt8)) (s : Bytes) : ℕ :=
  ((ranges.zip s).takeWhile fun x => x.1.1 ≤ x.2 ∧ x.2 ≤ x.1.2).length

/-- `String::from_utf8_lossy`: the longest start of a character that is not one is replaced. -/
def fromUtf8Lossy : Bytes → List Char
  | [] => []
  | b :: s =>
    if b < 0x80 then Char.ofNat b.toNat :: fromUtf8Lossy s
    else
      let n := matched (continuations b) s
      let c :=
        if n = (continuations b).length then readUtf8 (b :: s.take n) else none
      (c.getD "\ufffd").toList ++ fromUtf8Lossy (s.drop n)
termination_by s => s.length

/-- ASCII is decoded byte by byte. -/
theorem fromUtf8Lossy_of_lt {s : Bytes} (h : ∀ b ∈ s, b < 0x80) : fromUtf8Lossy s = latin s := by
  induction s with
  | nil =>
      rw [fromUtf8Lossy]
      rfl
  | cons b s ih =>
      obtain ⟨hb, hs⟩ := List.forall_mem_cons.1 h
      rw [fromUtf8Lossy, if_pos hb, ih hs]
      rfl

namespace Otlp

/-! ## The exchange -/

/-- The Collector's side of a push: it cannot be reached, it fails while it is written to, or one
read returns the start of its reply; nothing, if the read fails. -/
inductive Exchange where
  | refused (e : String)
  | broken (e : String)
  | replied (first : Bytes)

/-- `post`, as far as it depends on the Collector. -/
def post (t : Target) : Exchange → Except String Unit
  | .refused e => .error s!"connect {t.host}:{t.port}: {e}"
  | .broken e => .error e
  | .replied first =>
    match (splitWhitespace (fromUtf8Lossy first))[1]? with
    | some status =>
      if status.head? = some '2' then .ok ()
      else .error ("collector returned HTTP " ++ String.ofList status)
    | none => .ok ()

/-! ## The status -/

/-- A word at the front of a text is its first word. -/
theorem splitWhitespace_append {w : List Char} (hne : w ≠ [])
    (hword : ∀ c ∈ w, isWhitespace c = false) {sep : Char} (hsep : isWhitespace sep = true)
    (rest : List Char) : splitWhitespace (w ++ sep :: rest) = w :: splitWhitespace rest := by
  rw [splitWhitespace, List.splitOnP_append_cons_of_forall_mem hword sep hsep,
    List.filter_cons_of_pos (by simpa using hne)]
  rfl

/-- A word is not split. -/
theorem splitWhitespace_word {w : List Char} (hword : ∀ c ∈ w, isWhitespace c = false) :
    splitWhitespace w = if w = [] then [] else [w] := by
  rw [splitWhitespace, List.splitOnP_eq_singleton hword]
  by_cases hw : w = [] <;> simp [hw]

/-- The first word of a text that is cut off, if the cut is behind its first character. -/
theorem head?_splitWhitespace_take {w rest : List Char} (hne : w ≠ [])
    (hword : ∀ c ∈ w, isWhitespace c = false) (hrest : ∀ c ∈ rest.head?, isWhitespace c = true)
    {k : ℕ} (hk : 0 < k) :
    (splitWhitespace ((w ++ rest).take k)).head? = some (w.take k) := by
  have hcut : w.take k ≠ [] := by
    rw [Ne, List.take_eq_nil_iff, not_or]
    exact ⟨hk.ne', hne⟩
  have hcutWord : ∀ c ∈ w.take k, isWhitespace c = false := fun c hc =>
    hword c (List.mem_of_mem_take hc)
  rw [List.take_append]
  -- the cut is in the word, at its end, or behind it
  cases hmore : rest.take (k - w.length) with
  | nil => rw [List.append_nil, splitWhitespace_word hcutWord, if_neg hcut, List.head?_cons]
  | cons sep more =>
      have hsep : isWhitespace sep = true := by
        refine hrest sep ?_
        cases rest with
        | nil => rw [List.take_nil] at hmore; cases hmore
        | cons c rest =>
            cases hlen : k - w.length with
            | zero => rw [hlen] at hmore; cases hmore
            | succ n =>
                rw [hlen, List.take_succ_cons] at hmore
                rw [(List.cons.inj hmore).1]
                rfl
      rw [splitWhitespace_append hcut hcutWord hsep, List.head?_cons]

/-- **The status of a reply that is cut off anywhere.**  For a reply of a version, a status and
anything behind a blank, all in ASCII: if the read ends before the status the push counts as
successful; else it fails exactly if the status does not start with a 2, and the error names as
much of the status as was read. -/
theorem post_reply (t : Target) {version status rest : List Char}
    (hversion : ∀ c ∈ version, isWhitespace c = false) (hne : version ≠ [])
    (hstatus : ∀ c ∈ status, isWhitespace c = false) (hstatusNe : status ≠ [])
    (hrest : ∀ c ∈ rest.head?, isWhitespace c = true)
    (hascii : ∀ c ∈ version ++ ' ' :: (status ++ rest), c.toNat < 128) (k : ℕ) :
    post t (.replied ((utf8 (String.ofList (version ++ ' ' :: (status ++ rest)))).take k))
      = if k ≤ version.length + 1 ∨ status.head? = some '2' then .ok ()
        else .error ("collector returned HTTP "
          ++ String.ofList (status.take (k - (version.length + 1)))) := by
  have hread : fromUtf8Lossy ((utf8 (String.ofList (version ++ ' ' :: (status ++ rest)))).take k)
      = (version ++ ' ' :: (status ++ rest)).take k := by
    have hbytes : ∀ b ∈ utf8 (String.ofList (version ++ ' ' :: (status ++ rest))), b < 0x80 :=
      fun b hb => UInt8.lt_iff_toNat_lt.2 (lt_of_mem_utf8_ofList hascii hb)
    rw [fromUtf8Lossy_of_lt fun b hb => hbytes b (List.mem_of_mem_take hb), latin, List.map_take,
      ← latin, latin_utf8_ofList hascii]
  rw [post, hread]
  by_cases hk : k ≤ version.length
  · -- not even the version is read in full
    have hcut : ∀ c ∈ version.take k, isWhitespace c = false := fun c hc =>
      hversion c (List.mem_of_mem_take hc)
    rw [List.take_append_of_le_length hk, splitWhitespace_word hcut, if_pos (Or.inl (by omega))]
    split_ifs <;> rfl
  · obtain ⟨m, rfl⟩ : ∃ m, k = version.length + 1 + m := ⟨k - (version.length + 1), by omega⟩
    have htake : (version ++ ' ' :: (status ++ rest)).take (version.length + 1 + m)
        = version ++ ' ' :: (status ++ rest).take m := by
      rw [Nat.add_assoc, List.take_length_add_append, Nat.add_comm 1 m, List.take_succ_cons]
    rw [htake, splitWhitespace_append hne hversion (by decide), Nat.add_sub_cancel_left,
      List.getElem?_cons_succ, ← List.head?_eq_getElem?]
    by_cases hm : m = 0
    · subst hm
      rw [if_pos (Or.inl (le_refl _))]
      rfl
    · have hpos : 0 < m := Nat.pos_of_ne_zero hm
      have hhead : (status.take m).head? = status.head? := by
        rw [List.head?_take, if_neg hm]
      have hle : ¬ version.length + 1 + m ≤ version.length + 1 := by omega
      rw [head?_splitWhitespace_take hstatusNe hstatus hrest hpos]
      simp only [hhead, hle, false_or]

end Otlp

/-- A Collector that is overloaded, read up to the reason. -/
theorem Otlp.post_reply_unavailable :
    post Sample.pushTarget (.replied (utf8 "HTTP/1.1 503 "))
      = .error "collector returned HTTP 503" := by
  have hversion : Request.IsWord "HTTP/1.1" := by decide
  have hstatus : Request.IsWord "503" := by decide
  have hreason : ∀ c ∈ " Unavailable".toList.head?, isWhitespace c = true := by
    intro c hc
    obtain rfl : ' ' = c := Option.some.inj hc
    decide
  have hascii : PromLine.IsLine ("HTTP/1.1".toList ++ ' ' :: ("503".toList
      ++ " Unavailable".toList)) := by decide
  have hread := post_reply Sample.pushTarget hversion.2 (by decide) hstatus.2 (by decide) hreason
    (fun c hc => (hascii c hc).1) 13
  have hfirst : (utf8 (String.ofList ("HTTP/1.1".toList ++ ' ' :: ("503".toList
      ++ " Unavailable".toList)))).take 13 = utf8 "HTTP/1.1 503 " := by decide +kernel
  rw [← hfirst, hread]
  decide
