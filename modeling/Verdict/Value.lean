import Verdict.Comparator
import Verdict.Number.Shortest
import Verdict.Text.Blank
/-
Values: what an attribute has and what a condition compares it with.

A value is a number or a text.  The right-hand side of a condition is a number
where it reads as a finite one, and otherwise a text, without the single quotes
around it; so quoting a numeral makes it a text.
-/
namespace Verdict

/-- A number or a text. -/
inductive Value where
  | number (x : Binary64)
  | text (s : String)
deriving DecidableEq, Repr

namespace Value

/-- The integer `n` as a value, rounded to the closest number. -/
def ofInt (n : Int) : Value := .number (Decimal.ofInt n).toBinary64

/-- The finite number that all of `cs` writes. -/
def finiteNumber? (cs : List Char) : Option Binary64 :=
  ((Decimal.ofText? cs).map Decimal.toBinary64).filter Binary64.isFinite

/-- The value that the right-hand side `raw` of a condition stands for. -/
def ofLiteral (raw : String) : Value :=
  let cs := Text.trim raw.toList
  match finiteNumber? cs with
  | some x => .number x
  | none => .text (.ofList (Text.trim (Text.trimBoth (· == '\'') cs)))

/-- The order of values of one kind: numbers by size, texts by their first
differing code point.  Values of different kinds are not ordered. -/
def partialCompare : Value → Value → Option Ordering
  | number x, number y => x.partialCompare y
  | text s, text t => some (compare s t)
  | _, _ => none

/-- Whether two values are of one kind and the same there. -/
def sameAs : Value → Value → Bool
  | number x, number y => x.equals y
  | text s, text t => s == t
  | _, _ => false

/-- Whether `v c w` holds.  Equality does not ask how the values are ordered, so
`!=` also holds of values that are not ordered at all. -/
def compareWith (v : Value) (c : Comparator) (w : Value) : Bool :=
  match c with
  | .equal => v.sameAs w
  | .notEqual => !v.sameAs w
  | .greater => v.partialCompare w == some .gt
  | .greaterEqual => v.partialCompare w == some .gt || v.partialCompare w == some .eq
  | .less => v.partialCompare w == some .lt
  | .lessEqual => v.partialCompare w == some .lt || v.partialCompare w == some .eq

/-- Numbers are written with the fewest digits that read back, without exponent,
and a whole number without point; of two shortest decimals that are equally close
the larger one is written. -/
def numberFormat : Decimal.Format := ⟨.up, fun _ => true, "", ""⟩

/-- A value as a condition writes it: a text between single quotes. -/
def display : Value → String
  | number x => x.write numberFormat
  | text s => "'" ++ s ++ "'"

end Value
end Verdict
