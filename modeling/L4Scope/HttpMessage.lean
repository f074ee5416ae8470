/-
# HTTP messages

A message is a start line, header fields and a body of the length that the field Content-Length
announces.  `Http.read` reads one off the front of a byte string; a message that is written with
clean fields and the right length is read back, whatever follows it (`Http.read_encode`).
-/
import L4Scope.ByteString

/-! ## Text as bytes -/

/-- The bytes of a text. -/
def utf8 (s : String) : Bytes := s.toByteArray.data.toList

/-- The bytes of two texts. -/
theorem utf8_append (s t : String) : utf8 (s ++ t) = utf8 s ++ utf8 t := by
  simp [utf8]

/-- The text of bytes that are valid UTF-8. -/
def readUtf8 (b : Bytes) : Option String := String.fromUTF8? ⟨b.toArray⟩

/-- A text is read back. -/
theorem readUtf8_utf8 (s : String) : readUtf8 (utf8 s) = some s := by
  have hbytes : (⟨(utf8 s).toArray⟩ : ByteArray) = s.toByteArray := by
    rw [utf8, Array.toArray_toList]
  rw [readUtf8, hbytes, String.fromUTF8?, dif_pos s.isValidUTF8]
  exact congrArg some (String.toByteArray_inj.1 rfl)

/-- The characters of a text of single bytes. -/
def latin (b : Bytes) : List Char := b.map fun x => Char.ofNat x.toNat

/-- The bytes of a character. -/
theorem utf8_ofList_singleton (c : Char) : utf8 (String.ofList [c]) = String.utf8EncodeChar c := by
  simp [utf8, List.utf8Encode_singleton]

/-- The first character's bytes come first. -/
theorem utf8_ofList_cons (c : Char) (l : List Char) :
    utf8 (String.ofList (c :: l)) = String.utf8EncodeChar c ++ utf8 (String.ofList l) := by
  have hcons : String.ofList (c :: l) = String.ofList [c] ++ String.ofList l := by
    rw [← String.ofList_append]
    rfl
  rw [hcons, utf8_append, utf8_ofList_singleton]

/-- One byte for a character below 128. -/
theorem utf8EncodeChar_of_lt {c : Char} (hc : c.toNat < 128) :
    String.utf8EncodeChar c = [c.val.toUInt8] ∧ Char.ofNat c.val.toUInt8.toNat = c := by
  have hval : c.val.toNat < 128 := hc
  have hsize : c.utf8Size = 1 := by
    rw [Char.utf8Size_eq_one_iff, UInt32.le_iff_toNat_le]
    exact Nat.le_of_lt_succ hc
  have hnat : c.val.toUInt8.toNat = c.toNat := by
    rw [UInt32.toNat_toUInt8, Nat.mod_eq_of_lt (by omega)]
    rfl
  refine ⟨String.utf8EncodeChar_eq_singleton hsize, ?_⟩
  rw [hnat, Char.ofNat_toNat]

/-- The other characters have no byte below 128. -/
theorem lt_of_mem_utf8EncodeChar {c : Char} {b : UInt8} (h : b ∈ String.utf8EncodeChar c)
    (hb : b.toNat < 128) : c.toNat < 128 := by
  have hor (x m : UInt8) : m.toNat ≤ (x ||| m).toNat := by
    rw [UInt8.toNat_or]
    exact Nat.right_le_or
  -- the marks of a first byte of two, three and four, and of a later one
  have htwo (x : UInt8) : 192 ≤ (x ||| 0xc0).toNat := hor x 0xc0
  have hthree (x : UInt8) : 224 ≤ (x ||| 0xe0).toNat := hor x 0xe0
  have hfour (x : UInt8) : 240 ≤ (x ||| 0xf0).toNat := hor x 0xf0
  have hnext (x : UInt8) : 128 ≤ (x ||| 0x80).toNat := hor x 0x80
  rcases c.utf8Size_eq with hsize | hsize | hsize | hsize
  · have hle := Char.utf8Size_eq_one_iff.1 hsize
    rw [UInt32.le_iff_toNat_le] at hle
    exact Nat.lt_succ_of_le hle
  · rw [String.utf8EncodeChar_eq_cons_cons hsize] at h
    simp only [List.mem_cons, List.not_mem_nil, or_false] at h
    rcases h with rfl | rfl
    · exact absurd (Nat.lt_of_le_of_lt (htwo _) hb) (by decide)
    · exact absurd (Nat.lt_of_le_of_lt (hnext _) hb) (by decide)
  · rw [String.utf8EncodeChar_eq_cons_cons_cons hsize] at h
    simp only [List.mem_cons, List.not_mem_nil, or_false] at h
    rcases h with rfl | rfl | rfl
    · exact absurd (Nat.lt_of_le_of_lt (hthree _) hb) (by decide)
    · exact absurd (Nat.lt_of_le_of_lt (hnext _) hb) (by decide)
    · exact absurd (Nat.lt_of_le_of_lt (hnext _) hb) (by decide)
  · rw [String.utf8EncodeChar_eq_cons_cons_cons_cons hsize] at h
    simp only [List.mem_cons, List.not_mem_nil, or_false] at h
    rcases h with rfl | rfl | rfl | rfl
    · exact absurd (Nat.lt_of_le_of_lt (hfour _) hb) (by decide)
    · exact absurd (Nat.lt_of_le_of_lt (hnext _) hb) (by decide)
    · exact absurd (Nat.lt_of_le_of_lt (hnext _) hb) (by decide)
    · exact absurd (Nat.lt_of_le_of_lt (hnext _) hb) (by decide)

/-- A byte below 128 is a character of the text. -/
theorem mem_of_mem_utf8 {s : String} {b : UInt8} (h : b ∈ utf8 s) (hb : b.toNat < 128) :
    Char.ofNat b.toNat ∈ s.toList := by
  have hlist : ∀ l : List Char, b ∈ utf8 (String.ofList l) → Char.ofNat b.toNat ∈ l := by
    intro l hl
    induction l with
    | nil => exact absurd hl (List.not_mem_nil (a := b))
    | cons c l ih =>
        rw [utf8_ofList_cons, List.mem_append] at hl
        rcases hl with hc | hl
        · obtain ⟨hone, hback⟩ := utf8EncodeChar_of_lt (lt_of_mem_utf8EncodeChar hc hb)
          rw [hone, List.mem_singleton] at hc
          rw [hc, hback]
          exact List.mem_cons_self
        · exact List.mem_cons_of_mem c (ih hl)
  refine hlist s.toList ?_
  rwa [String.ofList_toList]

/-- An ASCII text is read back byte by byte. -/
theorem latin_utf8_ofList {l : List Char} (h : ∀ c ∈ l, c.toNat < 128) :
    latin (utf8 (String.ofList l)) = l := by
  induction l with
  | nil => rfl
  | cons c l ih =>
      obtain ⟨hc, hl⟩ := List.forall_mem_cons.1 h
      obtain ⟨hone, hback⟩ := utf8EncodeChar_of_lt hc
      rw [utf8_ofList_cons, hone, latin, List.map_append, ← latin, ← latin, ih hl, latin,
        List.map_singleton, hback]
      rfl

/-- Such a text has no other bytes. -/
theorem lt_of_mem_utf8_ofList {l : List Char} (h : ∀ c ∈ l, c.toNat < 128) {b : UInt8}
    (hb : b ∈ utf8 (String.ofList l)) : b.toNat < 128 := by
  induction l with
  | nil => exact absurd hb (List.not_mem_nil (a := b))
  | cons c l ih =>
      obtain ⟨hc, hl⟩ := List.forall_mem_cons.1 h
      rw [utf8_ofList_cons, (utf8EncodeChar_of_lt hc).1] at hb
      rcases List.mem_append.1 hb with hb | hb
      · rw [List.mem_singleton.1 hb, UInt32.toNat_toUInt8]
        exact Nat.lt_of_le_of_lt (Nat.mod_le _ _) hc
      · exact ih hl hb

/-- A text of single bytes is read back. -/
theorem latin_utf8 {s : String} (h : ∀ c ∈ s.toList, c.toNat < 128) :
    latin (utf8 s) = s.toList := by
  have hlist := latin_utf8_ofList h
  rwa [String.ofList_toList] at hlist

/-! ## Decimal numbers -/

/-- Reads a number in decimal digits. -/
def readDecimal (ds : List Char) : Option ℕ :=
  if ds ≠ [] ∧ ds.all Char.isDigit then some (Nat.ofDigitChars 10 ds 0) else none

/-- The digits of a number. -/
theorem toList_toString (n : ℕ) : (toString n).toList = Nat.toDigits 10 n := by
  rw [Nat.toString_eq_repr, Nat.toList_repr]

/-- They are digits. -/
theorem isDigit_toString (n : ℕ) : ∀ c ∈ (toString n).toList, c.isDigit = true := by
  rw [toList_toString]
  exact fun c hc => Nat.isDigit_of_mem_toDigits (by decide) (by decide) hc

/-- A displayed number is read back. -/
theorem readDecimal_toString (n : ℕ) : readDecimal (toString n).toList = some n := by
  have hdigits := List.all_eq_true.2 (isDigit_toString n)
  rw [toList_toString] at hdigits ⊢
  rw [readDecimal, if_pos ⟨Nat.toDigits_ne_nil, hdigits⟩, Nat.ofDigitChars_ten_toDigits]

/-- A number is read back. -/
theorem latin_toString (n : ℕ) : latin (utf8 (toString n)) = (toString n).toList := by
  apply latin_utf8
  intro c hc
  have hdigit := isDigit_toString n c hc
  rw [Char.isDigit_iff_toNat] at hdigit
  exact Nat.lt_of_le_of_lt hdigit.2 (by decide)

/-! ## Reading -/

namespace Http

/-- The bytes up to the first CR LF, and what follows it. -/
def line : Bytes → Option (Bytes × Bytes)
  | [] => none
  | 13 :: 10 :: s => some ([], s)
  | b :: s => (line s).map fun r => (b :: r.1, r.2)

/-- The name of a field, up to the colon, and the value behind the blank. -/
def field (l : Bytes) : Option (Bytes × Bytes) :=
  match l.dropWhile fun b => b ≠ 58 with
  | 58 :: 32 :: value => some (l.takeWhile fun b => b ≠ 58, value)
  | _ => none

/-- The fields up to the empty line; `n` bounds their number. -/
def fields : ℕ → Bytes → Option (List (Bytes × Bytes) × Bytes)
  | 0, _ => none
  | n + 1, s => do
    let (l, s) ← line s
    if l = [] then some ([], s)
    else
      let f ← field l
      let (fs, s) ← fields n s
      some (f :: fs, s)

/-- Names of fields do not distinguish case. -/
def lower (b : Bytes) : Bytes := b.map fun x => if 65 ≤ x ∧ x ≤ 90 then x + 32 else x

/-- The field announces the length of the body. -/
def isLength (f : Bytes × Bytes) : Bool := lower f.1 = utf8 "content-length"

/-- The length of the body: none is announced, or one. -/
def bodyLength (fs : List (Bytes × Bytes)) : Option ℕ :=
  match fs.filter isLength with
  | [] => some 0
  | [f] => readDecimal (latin f.2)
  | _ => none

/-- A start line, header fields and a body. -/
structure Message where
  start : Bytes
  fields : List (Bytes × Bytes)
  body : Bytes
  deriving DecidableEq

/-- A message, and what follows it. -/
def read (s : Bytes) : Option (Message × Bytes) := do
  let (start, s) ← line s
  let (fs, s) ← fields (s.length + 1) s
  let n ← bodyLength fs
  if n ≤ s.length then some (⟨start, fs, s.take n⟩, s.drop n) else none

/-! ## Writing -/

namespace Message

/-- The line of a field. -/
def encodeField (f : Bytes × Bytes) : Bytes := f.1 ++ (58 :: 32 :: (f.2 ++ [13, 10]))

/-- The bytes of a message. -/
def encode (m : Message) : Bytes :=
  m.start ++ ([13, 10] ++ (m.fields.flatMap encodeField ++ ([13, 10] ++ m.body)))

/-- No line holds a LF, no name a colon, and the announced length is that of the body. -/
structure Ok (m : Message) : Prop where
  start : 10 ∉ m.start
  names : ∀ f ∈ m.fields, 10 ∉ f.1 ∧ 58 ∉ f.1
  values : ∀ f ∈ m.fields, 10 ∉ f.2
  length : bodyLength m.fields = some m.body.length

end Message

/-! ## Reading what was written -/

/-- A line ends at the first LF that follows a CR, so it may hold a CR. -/
theorem line_append {l : Bytes} (h : 10 ∉ l) (rest : Bytes) :
    line (l ++ ([13, 10] ++ rest)) = some (l, rest) := by
  induction l with
  | nil => rfl
  | cons b l ih =>
      rw [List.mem_cons, not_or] at h
      have hnext (s : Bytes) : l ++ ([13, 10] ++ rest) ≠ 10 :: s := by
        cases l with
        | nil => exact fun heq => absurd (List.cons.inj heq).1 (by decide)
        | cons c l => exact fun heq => h.2 (List.mem_cons.2 (Or.inl (List.cons.inj heq).1.symm))
      have hstep : line (b :: (l ++ ([13, 10] ++ rest)))
          = (line (l ++ ([13, 10] ++ rest))).map fun r => (b :: r.1, r.2) := by
        rw [line]
        exact fun s _ heq => absurd heq (hnext s)
      rw [List.cons_append, hstep, ih h.2]
      rfl

/-- A field is read back. -/
theorem field_append {name : Bytes} (h : 58 ∉ name) (value : Bytes) :
    field (name ++ 58 :: 32 :: value) = some (name, value) := by
  have hname : ∀ b ∈ name, decide (b ≠ 58) = true := by
    intro b hb
    rw [decide_eq_true_eq]
    rintro rfl
    exact h hb
  rw [field, List.dropWhile_append_of_pos hname, List.takeWhile_append_of_pos hname]
  simp

/-- Fields are read back, up to the empty line. -/
theorem fields_append {fs : List (Bytes × Bytes)} (hnames : ∀ f ∈ fs, 10 ∉ f.1 ∧ 58 ∉ f.1)
    (hvalues : ∀ f ∈ fs, 10 ∉ f.2) {n : ℕ} (hn : fs.length < n) (rest : Bytes) :
    fields n (fs.flatMap Message.encodeField ++ ([13, 10] ++ rest)) = some (fs, rest) := by
  induction fs generalizing n with
  | nil =>
      obtain ⟨n, rfl⟩ : ∃ m, n = m + 1 := ⟨n - 1, by omega⟩
      rfl
  | cons f fs ih =>
      obtain ⟨n, rfl⟩ : ∃ m, n = m + 1 := ⟨n - 1, by omega⟩
      obtain ⟨⟨hname, hcolon⟩, hnames⟩ := List.forall_mem_cons.1 hnames
      obtain ⟨hvalue, hvalues⟩ := List.forall_mem_cons.1 hvalues
      have hline : 10 ∉ f.1 ++ 58 :: 32 :: f.2 := by
        simp [hname, hvalue]
      have hsplit : (f :: fs).flatMap Message.encodeField ++ ([13, 10] ++ rest)
          = (f.1 ++ 58 :: 32 :: f.2)
            ++ ([13, 10] ++ (fs.flatMap Message.encodeField ++ ([13, 10] ++ rest))) := by
        simp [Message.encodeField]
      rw [List.length_cons] at hn
      have hne : f.1 ++ 58 :: 32 :: f.2 ≠ [] := by simp
      have hrest := ih hnames hvalues (by omega : fs.length < n)
      rw [hsplit, fields, line_append hline]
      simp only [Option.bind_eq_bind, Option.bind_some, if_neg hne, field_append hcolon, hrest]

/-- **A message is read back.** -/
theorem read_encode {m : Message} (h : m.Ok) (rest : Bytes) :
    read (m.encode ++ rest) = some (m, rest) := by
  have hshort : m.fields.length
      < (m.fields.flatMap Message.encodeField ++ ([13, 10] ++ (m.body ++ rest))).length + 1 := by
    have hle : m.fields.length ≤ (m.fields.flatMap Message.encodeField).length := by
      induction m.fields with
      | nil => exact Nat.zero_le _
      | cons f fs ih =>
          rw [List.length_cons, List.flatMap_cons, List.length_append]
          simp only [Message.encodeField, List.length_append, List.length_cons]
          omega
    rw [List.length_append]
    omega
  have hbytes : m.encode ++ rest = m.start
      ++ ([13, 10] ++ (m.fields.flatMap Message.encodeField ++ ([13, 10] ++ (m.body ++ rest)))) := by
    simp [Message.encode]
  have hbody : m.body.length ≤ (m.body ++ rest).length := by
    rw [List.length_append]
    omega
  rw [hbytes, read, line_append h.start]
  simp only [Option.bind_eq_bind, Option.bind_some, fields_append h.names h.values hshort, h.length,
    if_pos hbody, List.take_left, List.drop_left]

end Http
