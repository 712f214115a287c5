import Verdict.Number.Binary64
/-
Decimal numerals.

A decimal is kept exactly, as a coefficient and a power of ten; `Decimal.toBinary64`
rounds it once.  `Decimal.ofText?` reads the numerals of a condition's right-hand
side:

    sign? (digits ("." digits?)? | "." digits) (("e" | "E") sign? digits)?
-/
namespace Verdict

/-- The number `coefficient * 10 ^ exponent`, with a sign of its own so that the
negative zero is a decimal too. -/
structure Decimal where
  /-- The number is preceded by a minus sign. -/
  negative : Bool
  /-- The digits, without point. -/
  coefficient : Nat
  /-- The power of ten that the last digit counts. -/
  exponent : Int
deriving DecidableEq, Repr

namespace Decimal

/-- The integer `n`. -/
def ofInt (n : Int) : Decimal :=
  ⟨n < 0, n.natAbs, 0⟩

/-- A power of ten. -/
def tenTo (n : Nat) : Nat := Nat.pow 10 n

/-- The floating-point number closest to `d`.

The coefficient is at least 1 and below `2 ^ (log2 + 1)`, hence below
`10 ^ (log2 + 1)`.  So an exponent above 308 exceeds every finite number, and a
product below `10 ^ (-324)` is under half the smallest positive one; powers of ten
are formed between these bounds only. -/
def toBinary64 (d : Decimal) : Binary64 :=
  if d.coefficient = 0 then .ofMagnitude d.negative 0
  else if 308 < d.exponent then .ofMagnitude d.negative Binary64.infinityMagnitude
  else if d.exponent + d.coefficient.log2 + 1 ≤ -324 then .ofMagnitude d.negative 0
  else .nearest d.negative (d.coefficient * tenTo d.exponent.toNat) (tenTo (-d.exponent).toNat)

/-! ## Reading -/

/-- The number that the decimal digits `cs` write. -/
def digitsToNat (cs : List Char) : Nat :=
  cs.foldl (fun n c => 10 * n + (c.toNat - '0'.toNat)) 0

/-- The leading digits of `cs`, and what follows them. -/
def spanDigits (cs : List Char) : List Char × List Char :=
  (cs.takeWhile Char.isDigit, cs.dropWhile Char.isDigit)

/-- An optional sign, and what follows it. -/
def spanSign : List Char → Bool × List Char
  | '-' :: cs => (true, cs)
  | '+' :: cs => (false, cs)
  | cs => (false, cs)

/-- Digits after a decimal point, and what follows them; none without a point. -/
def spanFraction : List Char → List Char × List Char
  | '.' :: cs => spanDigits cs
  | cs => ([], cs)

/-- The exponent that the decimal digits `cs` write.  A digit behind an exponent of
65536 or more is not looked at, so exponents have an upper bound; a numeral shows it
only with tens of thousands of digits that outweigh such an exponent. -/
def digitsToExponent (cs : List Char) : Nat :=
  cs.foldl (fun n c => if n < 0x10000 then 10 * n + (c.toNat - '0'.toNat) else n) 0

/-- The exponent written by all of `cs`: nothing, or `e` and a signed integer. -/
def exponentOf? (cs : List Char) : Option Int :=
  match cs with
  | [] => some 0
  | c :: rest =>
    let (negative, digits) := spanSign rest
    if (c == 'e' || c == 'E') && !digits.isEmpty && digits.all Char.isDigit then
      some (if negative then -(digitsToExponent digits : Int) else digitsToExponent digits)
    else none

/-- The decimal with the given digits before and after the point. -/
def ofDigits (negative : Bool) (whole fraction : List Char) (exponent : Int) : Decimal :=
  ⟨negative, digitsToNat (whole ++ fraction), exponent - fraction.length⟩

/-- The decimal that all of `cs` writes. -/
def ofText? (cs : List Char) : Option Decimal :=
  let (negative, rest) := spanSign cs
  let (whole, rest) := spanDigits rest
  let (fraction, rest) := spanFraction rest
  if whole.isEmpty && fraction.isEmpty then none
  else (exponentOf? rest).map (ofDigits negative whole fraction)

end Decimal
end Verdict
