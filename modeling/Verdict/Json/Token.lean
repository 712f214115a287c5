import Verdict.Number.Decimal
import Verdict.Text.Blank
/-
Tokens of JSON text.

A text is cut into tokens as far as it follows the grammar; the first thing in it
that starts no token is the token `fault`, and nothing is cut behind it.  So a
reader that stops before the fault never notices it.

A string may name code units by their numbers, and two units may be needed for one
character.  A string with a unit that is half a character is cut like any other,
but it has no text.
-/
namespace Verdict.Json

/-- A number of a document.  An integer is a number that is written without point
and exponent; the negative zero is none, for no integer is equal to it. -/
inductive Number where
  | integer (n : Int)
  | decimal (d : Decimal)
deriving DecidableEq, Repr

namespace Number

/-- The number as a decimal. -/
def toDecimal : Number → Decimal
  | integer n => .ofInt n
  | decimal d => d

/-- The floating-point number closest to a number of a document. -/
def toBinary64 (n : Number) : Binary64 :=
  n.toDecimal.toBinary64

/-- The number of digits of a decimal that count one by one. -/
def maxDigits : Nat := 768

/-- The decimal with the given digits before and after the point.  Zeros at the end
of the fraction do not count.  If more than `maxDigits` digits are left, all that
follow count as a single digit one, zeros too; so a number with that many digits is
never halfway between two floating-point numbers. -/
def decimalOfDigits (negative : Bool) (whole fraction : List Char) (exponent : Int) : Decimal :=
  let fraction := Text.trimEnd (· == '0') fraction
  let digits := Text.trimStart (· == '0') (whole ++ fraction)
  let exponent := exponent - fraction.length
  if digits.length ≤ maxDigits then ⟨negative, Decimal.digitsToNat digits, exponent⟩
  else
    ⟨negative, 10 * Decimal.digitsToNat (digits.take maxDigits) + 1,
      exponent + (digits.length - maxDigits - 1 : Nat)⟩

/-- The number with the given digits before and after the point. -/
def ofDigits (negative : Bool) (whole fraction : List Char) (exponent? : Option Int) : Number :=
  let n := Decimal.digitsToNat whole
  if fraction.isEmpty && exponent?.isNone && (!negative || n != 0) then
    integer (if negative then -(n : Int) else n)
  else decimal (decimalOfDigits negative whole fraction (exponent?.getD 0))

end Number

/-- A token of JSON text. -/
inductive Token where
  | beginArray
  | endArray
  | beginObject
  | endObject
  | colon
  | comma
  | null
  | bool (b : Bool)
  | number (n : Number)
  | string (text? : Option String)
  | fault
deriving DecidableEq, Repr

namespace Token

/-- The four characters that may stand between tokens. -/
def isBlank (c : Char) : Bool :=
  c == ' ' || c == '\t' || c == '\n' || c == '\r'

/-! ## Numbers -/

/-- An optional minus sign, and what follows it. -/
def spanMinus : List Char → Bool × List Char
  | '-' :: cs => (true, cs)
  | cs => (false, cs)

/-- The digits before the point, where only zero itself starts with a zero. -/
def readWhole? (cs : List Char) : Option (List Char × List Char) :=
  let (digits, rest) := Decimal.spanDigits cs
  if digits.isEmpty || (digits.head? == some '0' && digits.length != 1) then none
  else some (digits, rest)

/-- The digits after a point, if there is one. -/
def readFraction? : List Char → Option (List Char × List Char)
  | '.' :: cs =>
    let (digits, rest) := Decimal.spanDigits cs
    if digits.isEmpty then none else some (digits, rest)
  | cs => some ([], cs)

/-- The number after an `e`, if there is one. -/
def readExponent? : List Char → Option (Option Int × List Char)
  | [] => some (none, [])
  | c :: cs =>
    if c == 'e' || c == 'E' then
      let (negative, rest) := Decimal.spanSign cs
      let (digits, rest) := Decimal.spanDigits rest
      let exponent : Int := Decimal.digitsToNat digits
      if digits.isEmpty then none else some (some (if negative then -exponent else exponent), rest)
    else some (none, c :: cs)

/-- The number at the start of `cs`, and what follows it. -/
def readNumber? (cs : List Char) : Option (Token × List Char) := do
  let (negative, rest) := spanMinus cs
  let (whole, rest) ← readWhole? rest
  let (fraction, rest) ← readFraction? rest
  let (exponent?, rest) ← readExponent? rest
  return (number (.ofDigits negative whole fraction exponent?), rest)

/-! ## Strings -/

/-- A part of a string: a character, or a code unit given by its number. -/
inductive Piece where
  | char (c : Char)
  | unit (n : Nat)
deriving DecidableEq, Repr

/-- The character that a letter stands for after a backslash. -/
def escaped? (c : Char) : Option Char :=
  match c with
  | '"' => some '"'
  | '\\' => some '\\'
  | '/' => some '/'
  | 'b' => some '\x08'
  | 'f' => some '\x0c'
  | 'n' => some '\n'
  | 'r' => some '\r'
  | 't' => some '\t'
  | _ => none

/-- The value of a hexadecimal digit. -/
def hexDigit? (c : Char) : Option Nat :=
  if c.isDigit then some (c.toNat - '0'.toNat)
  else if 'a' ≤ c && c ≤ 'f' then some (c.toNat - 'a'.toNat + 10)
  else if 'A' ≤ c && c ≤ 'F' then some (c.toNat - 'A'.toNat + 10)
  else none

/-- The number that hexadecimal digits write. -/
def hexToNat? (cs : List Char) : Option Nat :=
  cs.foldlM (fun n c => (hexDigit? c).map (16 * n + ·)) 0

/-- The parts of a string from behind its opening quote on, and what follows the
closing one; the parts in `done` are in front of them, newest first. -/
def readPieces? (done : List Piece) : List Char → Option (List Piece × List Char)
  | [] => none
  | '"' :: cs => some (done.reverse, cs)
  | '\\' :: 'u' :: a :: b :: c :: d :: cs =>
    match hexToNat? [a, b, c, d] with
    | some n => readPieces? (.unit n :: done) cs
    | none => none
  | '\\' :: c :: cs =>
    match escaped? c with
    | some c => readPieces? (.char c :: done) cs
    | none => none
  | c :: cs => if c.toNat < 0x20 then none else readPieces? (.char c :: done) cs

/-- The text that parts of a string make up after the characters in `done`, newest
first.  Units from D800 to DBFF and units from DC00 to DFFF are the halves of a
character. -/
def joinPieces? (done : List Char) : List Piece → Option String
  | [] => some (.ofList done.reverse)
  | .char c :: pieces => joinPieces? (c :: done) pieces
  | .unit n :: pieces =>
    if n < 0xD800 || 0xE000 ≤ n then joinPieces? (.ofNat n :: done) pieces
    else
      match pieces with
      | .unit m :: pieces =>
        if n < 0xDC00 && 0xDC00 ≤ m && m < 0xE000 then
          joinPieces? (.ofNat (0x10000 + (n - 0xD800) * 0x400 + (m - 0xDC00)) :: done) pieces
        else none
      | _ => none

/-- The string behind an opening quote, and what follows it. -/
def readString? (cs : List Char) : Option (Token × List Char) :=
  (readPieces? [] cs).map fun (pieces, rest) => (string (joinPieces? [] pieces), rest)

/-! ## Tokens -/

/-- The token that is a word. -/
def readWord? (cs : List Char) : Option (Token × List Char) :=
  [("null", null), ("true", bool true), ("false", bool false)].findSome? fun (word, token) =>
    (Text.afterWord? word.toList cs).map fun rest => (token, rest)

/-- The token that starts with `c`, where `cs` follows, and what follows the token. -/
def first? (c : Char) (cs : List Char) : Option (Token × List Char) :=
  match c with
  | '[' => some (beginArray, cs)
  | ']' => some (endArray, cs)
  | '{' => some (beginObject, cs)
  | '}' => some (endObject, cs)
  | ':' => some (colon, cs)
  | ',' => some (comma, cs)
  | '"' => readString? cs
  | c => if c == '-' || c.isDigit then readNumber? (c :: cs) else readWord? (c :: cs)

theorem length_spanDigits_le (cs : List Char) :
    (Decimal.spanDigits cs).2.length ≤ cs.length :=
  (List.dropWhile_sublist _).length_le

theorem length_spanSign_le (cs : List Char) : (Decimal.spanSign cs).2.length ≤ cs.length := by
  unfold Decimal.spanSign
  split <;> simp

theorem length_spanMinus_le (cs : List Char) : (spanMinus cs).2.length ≤ cs.length := by
  unfold spanMinus
  split <;> simp

theorem length_of_readWhole? {cs rest digits : List Char}
    (h : readWhole? cs = some (digits, rest)) : rest.length < cs.length := by
  have total : cs.takeWhile Char.isDigit ++ cs.dropWhile Char.isDigit = cs :=
    List.takeWhile_append_dropWhile
  have := congrArg List.length total
  simp only [readWhole?, Decimal.spanDigits, Option.ite_none_left_eq_some, Option.some.injEq,
    Prod.mk.injEq, Bool.or_eq_true, not_or, List.isEmpty_iff] at h
  obtain ⟨⟨nonempty, -⟩, rfl, rfl⟩ := h
  have := List.length_pos_iff.2 nonempty
  simp only [List.length_append] at *
  omega

theorem length_of_readFraction? {cs rest digits : List Char}
    (h : readFraction? cs = some (digits, rest)) : rest.length ≤ cs.length := by
  unfold readFraction? at h
  split at h
  · simp only [Option.ite_none_left_eq_some, Option.some.injEq, Prod.mk.injEq] at h
    obtain ⟨-, -, rfl⟩ := h
    exact Nat.le_succ_of_le (length_spanDigits_le _)
  · simp_all

theorem length_of_readExponent? {cs rest : List Char} {exponent? : Option Int}
    (h : readExponent? cs = some (exponent?, rest)) : rest.length ≤ cs.length := by
  unfold readExponent? at h
  split at h
  · simp_all
  · split at h
    · simp only [Option.ite_none_left_eq_some, Option.some.injEq, Prod.mk.injEq] at h
      obtain ⟨-, -, rfl⟩ := h
      exact Nat.le_succ_of_le (Nat.le_trans (length_spanDigits_le _) (length_spanSign_le _))
    · simp_all

theorem length_of_readNumber? {cs rest : List Char} {token : Token}
    (h : readNumber? cs = some (token, rest)) : rest.length < cs.length := by
  simp only [readNumber?, Option.bind_eq_bind, Option.bind_eq_some_iff, Option.pure_def,
    Option.some.injEq, Prod.mk.injEq, Prod.exists] at h
  obtain ⟨_, _, whole, _, _, fraction, _, _, exponent, -, rfl⟩ := h
  have := length_of_readWhole? whole
  have := length_of_readFraction? fraction
  have := length_of_readExponent? exponent
  have := length_spanMinus_le cs
  omega

theorem length_of_readPieces? {done pieces : List Piece} {cs rest : List Char}
    (h : readPieces? done cs = some (pieces, rest)) : rest.length < cs.length := by
  fun_induction readPieces? done cs with
  | case1 => cases h
  | case2 => simp_all
  | case3 _ _ _ _ _ _ _ _ ih => exact Nat.lt_add_right 6 (ih h)
  | case4 => cases h
  | case5 _ _ _ _ _ _ ih => exact Nat.lt_add_right 2 (ih h)
  | case6 => cases h
  | case7 => cases h
  | case8 _ _ _ _ _ _ _ ih => exact Nat.lt_add_right 1 (ih h)

theorem length_of_readString? {cs rest : List Char} {token : Token}
    (h : readString? cs = some (token, rest)) : rest.length < cs.length := by
  simp only [readString?, Option.map_eq_some_iff, Prod.mk.injEq, Prod.exists] at h
  obtain ⟨pieces, _, read, -, rfl⟩ := h
  exact length_of_readPieces? read

theorem length_of_readWord? {cs rest : List Char} {token : Token}
    (h : readWord? cs = some (token, rest)) : rest.length < cs.length := by
  obtain ⟨⟨word, _⟩, mem, found⟩ := List.exists_of_findSome?_eq_some h
  simp only [Option.map_eq_some_iff, Prod.mk.injEq] at found
  obtain ⟨_, after, -, rfl⟩ := found
  have positive : 0 < word.toList.length := by
    simp only [List.mem_cons, Prod.mk.injEq, List.not_mem_nil, or_false] at mem
    rcases mem with ⟨rfl, -⟩ | ⟨rfl, -⟩ | ⟨rfl, -⟩ <;> decide
  simp only [Text.afterWord?_eq_some_iff.1 after, List.length_append]
  omega

theorem length_of_first? {c : Char} {cs rest : List Char} {token : Token}
    (h : first? c cs = some (token, rest)) : rest.length < cs.length + 1 := by
  unfold first? at h
  split at h
  case h_7 => exact Nat.lt_succ_of_lt (length_of_readString? h)
  case h_8 =>
    split at h
    · exact length_of_readNumber? h
    · exact length_of_readWord? h
  all_goals simp_all

/-- The tokens of `cs` behind those in `done`, which are given newest first. -/
def scan (done : List Token) (cs : List Char) : List Token :=
  match cs with
  | [] => done.reverse
  | c :: cs =>
    if isBlank c then scan done cs
    else
      match _read : first? c cs with
      | some (token, rest) => scan (token :: done) rest
      | none => (fault :: done).reverse
termination_by cs.length
decreasing_by
  · exact Nat.lt_succ_self _
  · exact length_of_first? _read

/-- The tokens of the text `json`. -/
def ofText (json : String) : List Token :=
  scan [] json.toList

end Token
end Verdict.Json
