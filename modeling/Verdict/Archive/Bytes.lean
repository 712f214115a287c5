/-
Numbers and texts as bytes.

A reader takes what it needs from the front of a list of bytes and returns the
rest, so that readers are put one after the other, and what a writer makes is read
back whatever follows it.  Integers are little-endian; one whose size is not fixed
takes a single byte up to 250, and else a tag and two, four or eight bytes.
-/
namespace Verdict.Archive

/-- What is wrong with bytes that should hold a value. -/
inductive DecodeError where
  /-- The bytes end before the value does. -/
  | unexpectedEnd
  /-- The tag of an integer announces more bits than the integer may have. -/
  | invalidIntegerType
  /-- An optional value is marked as neither absent nor present. -/
  | unexpectedVariant
  /-- No kind of formula has this number. -/
  | unknownKind
  /-- The bytes of a text are not UTF-8. -/
  | utf8
deriving DecidableEq, Repr

/-- What is read from the front of some bytes, and the rest of them. -/
abbrev Decoded (α : Type) := Except DecodeError (α × List UInt8)

/-- The `n` lowest bytes of `value`, the lowest first. -/
def littleEndian : (n : Nat) → (value : Nat) → List UInt8
  | 0, _ => []
  | n + 1, value => .ofNat (value % 256) :: littleEndian n (value / 256)

/-- The number that `bytes` write, the lowest byte first. -/
def ofLittleEndian (bytes : List UInt8) : Nat :=
  bytes.foldr (fun byte value => byte.toNat + 256 * value) 0

/-- The first `n` bytes, put in front of `taken` from right to left, and the rest. -/
def takeOnto (taken : List UInt8) : (n : Nat) → List UInt8 → Decoded (List UInt8)
  | 0, bytes => .ok (taken.reverse, bytes)
  | _ + 1, [] => .error .unexpectedEnd
  | n + 1, byte :: bytes => takeOnto (byte :: taken) n bytes

/-- The first `n` bytes, and the rest. -/
def takeBytes (n : Nat) (bytes : List UInt8) : Decoded (List UInt8) :=
  takeOnto [] n bytes

theorem takeOnto_eq {taken front bytes rest : List UInt8} {n : Nat}
    (h : takeOnto taken n bytes = .ok (front, rest)) :
    ∃ read, read.length = n ∧ bytes = read ++ rest ∧ front = taken.reverse ++ read := by
  induction n generalizing taken bytes with
  | zero =>
    simp only [takeOnto, Except.ok.injEq, Prod.mk.injEq] at h
    exact ⟨[], rfl, by simp [h.2], by simp [h.1]⟩
  | succ n ih =>
    cases bytes with
    | nil => simp [takeOnto] at h
    | cons byte bytes =>
      obtain ⟨read, hlen, hbytes, hfront⟩ := ih h
      exact ⟨byte :: read, by simp [hlen], by simp [hbytes], by simp [hfront]⟩

/-- What is taken from the front and the rest are all there was. -/
theorem takeBytes_eq {front bytes rest : List UInt8} {n : Nat}
    (h : takeBytes n bytes = .ok (front, rest)) : front.length = n ∧ bytes = front ++ rest := by
  obtain ⟨read, hlen, hbytes, hfront⟩ := takeOnto_eq h
  simp only [List.reverse_nil, List.nil_append] at hfront
  exact ⟨hfront ▸ hlen, hfront ▸ hbytes⟩

/-! ## Integers -/

/-- The shortest form of an integer. -/
def writeInteger (n : UInt64) : List UInt8 :=
  let value := n.toNat
  if value ≤ 250 then littleEndian 1 value
  else if value < 0x10000 then 251 :: littleEndian 2 value
  else if value < 0x100000000 then 252 :: littleEndian 4 value
  else 253 :: littleEndian 8 value

/-- The number of bytes that follow the tag of an integer of at most `width` bytes. -/
def integerSize? (width : Nat) (tag : UInt8) : Option Nat :=
  (([(251, 2), (252, 4), (253, 8)] : List (UInt8 × Nat)).lookup tag).filter (· ≤ width)

/-- An integer of at most `width` bytes, in any of its forms. -/
def readInteger (width : Nat) : List UInt8 → Decoded Nat
  | [] => .error .unexpectedEnd
  | tag :: bytes =>
    if tag ≤ 250 then .ok (tag.toNat, bytes)
    else
      match integerSize? width tag with
      | none => .error .invalidIntegerType
      | some size => (takeBytes size bytes).map fun (digits, rest) => (ofLittleEndian digits, rest)

theorem length_lt_of_readInteger {width n : Nat} {bytes rest : List UInt8}
    (h : readInteger width bytes = .ok (n, rest)) : rest.length < bytes.length := by
  cases bytes with
  | nil => simp [readInteger] at h
  | cons tag bytes =>
    simp only [readInteger] at h
    split at h
    · simp only [Except.ok.injEq, Prod.mk.injEq] at h
      simp [← h.2]
    · split at h
      · simp at h
      · rename_i size _
        cases ht : takeBytes size bytes with
        | error e => simp [ht, Except.map] at h
        | ok taken =>
          obtain ⟨digits, rest'⟩ := taken
          simp only [ht, Except.map, Except.ok.injEq, Prod.mk.injEq] at h
          have := (takeBytes_eq ht).2
          simp only [this, ← h.2, List.length_append, List.length_cons]
          omega

/-! ## Texts -/

/-- The UTF-8 bytes of a text. -/
def utf8 (text : String) : List UInt8 :=
  text.toByteArray.data.toList

/-- The text that UTF-8 bytes write. -/
def ofUtf8? (bytes : List UInt8) : Option String :=
  String.fromUTF8? ⟨bytes.toArray⟩

/-- A text as the number of its bytes and the bytes. -/
def writeText (text : String) : List UInt8 :=
  writeInteger (.ofNat (utf8 text).length) ++ utf8 text

/-- A text after the number of its bytes. -/
def readText (bytes : List UInt8) : Decoded String :=
  match readInteger 8 bytes with
  | .error e => .error e
  | .ok (size, bytes) =>
    match takeBytes size bytes with
    | .error e => .error e
    | .ok (content, rest) =>
      match ofUtf8? content with
      | some text => .ok (text, rest)
      | none => .error .utf8

theorem length_lt_of_readText {text : String} {bytes rest : List UInt8}
    (h : readText bytes = .ok (text, rest)) : rest.length < bytes.length := by
  unfold readText at h
  split at h
  · simp at h
  · rename_i size bytes' hsize
    split at h
    · simp at h
    · rename_i content rest' htake
      split at h
      · simp only [Except.ok.injEq, Prod.mk.injEq] at h
        have h1 := length_lt_of_readInteger hsize
        have h2 := (takeBytes_eq htake).2
        simp only [h2, List.length_append] at h1
        rw [← h.2]
        omega
      · simp at h

theorem ofUtf8?_utf8 (text : String) : ofUtf8? (utf8 text) = some text := by
  have h : (⟨text.toByteArray.data.toList.toArray⟩ : ByteArray) = text.toByteArray := rfl
  simp only [ofUtf8?, utf8, h, String.fromUTF8?, text.isValidUTF8, dite_true]
  rfl

end Verdict.Archive
