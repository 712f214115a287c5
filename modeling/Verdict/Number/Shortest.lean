import Verdict.Number.Decimal
/-
The shortest decimal of a floating-point number.

Every finite number is the nearest one for all reals of an interval around it;
the ends belong to the interval where its significand is even.  The shortest
decimal is the one of fewest digits in that interval, and among those the closest
to the number.  It is found on the grids of 1, 2, … 17 digits in turn: if any
point of a grid lies in the interval, so does one of the two around the number.

How a tie between the two is decided and where an exponent is written are choices
of the format that uses the digits, gathered in `Decimal.Format`.
-/
namespace Verdict

/-- Which of two equally close neighbours on a decimal grid is taken. -/
inductive Tie where
  | up
  | even
deriving DecidableEq, Repr

namespace Binary64

/-- The reals that round to a positive number, and the number itself, as
multiples of a common unit fraction. -/
structure Interval where
  /-- Numerators of the lower end, the number and the upper end. -/
  low : Nat
  mid : Nat
  high : Nat
  /-- The denominator. -/
  den : Nat
  /-- The ends belong to the interval. -/
  closed : Bool

/-- The interval of the reals that round to `x`.  Below a power of two the
neighbours are half as far apart, so the lower end is half as far away. -/
def interval (x : Binary64) : Interval :=
  let m := x.significand
  let below := if m = binade && 1 < x.magnitude / binade then 1 else 2
  let unit := x.exponent - 2
  { low := (4 * m - below) <<< unit.toNat
    mid := (4 * m) <<< unit.toNat
    high := (4 * m + 2) <<< unit.toNat
    den := 1 <<< (-unit).toNat
    closed := m % 2 = 0 }

namespace Interval

/-- The end of the integer part of `mid / den`: the largest `p` with
`10 ^ (p - 1) ≤ mid / den`.  The logarithm to base two is turned into one to base
ten, which is then off by at most one. -/
def pointPosition (i : Interval) : Int :=
  let p := floorLog2 i.mid i.den * 30103 / 100000 + 1
  if i.den * Decimal.tenTo p.toNat ≤ i.mid * Decimal.tenTo (-p).toNat then p + 1 else p

/-- The closest multiple of `10 ^ g` to `mid / den` that lies in the interval. -/
def onGrid? (i : Interval) (tie : Tie) (g : Int) : Option Nat :=
  let up := Decimal.tenTo (-g).toNat
  let den := i.den * Decimal.tenTo g.toNat
  let floor := i.mid * up / den
  let rest := i.mid * up % den
  let within (n : Nat) : Bool :=
    if i.closed then i.low * up ≤ n * den && n * den ≤ i.high * up
    else i.low * up < n * den && n * den < i.high * up
  let lowerFirst : Bool :=
    2 * rest < den || (2 * rest == den && tie == .even && floor % 2 == 0) || rest == 0
  if lowerFirst then
    if within floor then some floor else if within (floor + 1) then some (floor + 1) else none
  else
    if within (floor + 1) then some (floor + 1) else if within floor then some floor else none

end Interval

/-- `d` without zeros at the end of its coefficient. -/
def stripZeros (coefficient : Nat) (exponent : Int) : Nat × Int :=
  if h : 0 < coefficient ∧ coefficient % 10 = 0 then stripZeros (coefficient / 10) (exponent + 1)
  else (coefficient, exponent)
termination_by coefficient
decreasing_by omega

/-- The shortest decimal that rounds to the finite number `x`. -/
def shortest (tie : Tie) (x : Binary64) : Decimal :=
  if x.magnitude = 0 then ⟨x.isNegative, 0, 0⟩
  else
    let i := x.interval
    let p := i.pointPosition
    let onGrid (n : Nat) : Option (Nat × Int) :=
      (i.onGrid? tie (p - n)).map fun c => (c, p - n)
    let (c, g) := ((List.range' 1 17).findSome? onGrid).getD (0, 0)
    let (c, g) := stripZeros c g
    ⟨x.isNegative, c, g⟩

end Binary64

namespace Decimal

/-- How a format writes decimals. -/
structure Format where
  /-- How equally close shortest decimals are told apart. -/
  tie : Tie
  /-- Whether a number is written without exponent, by the number of digits in
  front of its point. -/
  isPositional : Int → Bool
  /-- What follows a whole number written without exponent. -/
  wholeMark : String
  /-- What precedes an exponent that is not negative. -/
  exponentSign : String

/-- `n` zeros. -/
def zeros (n : Int) : String := .ofList (List.replicate n.toNat '0')

/-- The digits of `d` with the point in its place, `pointAt` digits from the left. -/
def positional (wholeMark : String) (digits : String) (exponent : Int) : String :=
  let pointAt := digits.length + exponent
  if 0 ≤ exponent then digits ++ zeros exponent ++ wholeMark
  else if 0 < pointAt then
    let cs := digits.toList
    .ofList (cs.take pointAt.toNat ++ '.' :: cs.drop pointAt.toNat)
  else "0." ++ zeros (-pointAt) ++ digits

/-- The digits of `d` with the point after the first and an exponent. -/
def scientific (exponentSign : String) (digits : String) (exponent : Int) : String :=
  let fraction := digits.toList.drop 1
  let exponent := digits.length + exponent - 1
  .ofList (digits.toList.take 1) ++ (if fraction.isEmpty then "" else "." ++ .ofList fraction)
    ++ "e" ++ (if 0 ≤ exponent then exponentSign else "") ++ toString exponent

/-- The text of `d` in the given format. -/
def write (f : Format) (d : Decimal) : String :=
  let digits := toString d.coefficient
  let body :=
    if f.isPositional (digits.length + d.exponent) then positional f.wholeMark digits d.exponent
    else scientific f.exponentSign digits d.exponent
  if d.negative then "-" ++ body else body

end Decimal

/-- The text of `x` in the given format, by its shortest decimal. -/
def Binary64.write (f : Decimal.Format) (x : Binary64) : String :=
  if x.isNaN then "NaN"
  else if x.isFinite then (x.shortest f.tie).write f
  else if x.isNegative then "-inf" else "inf"

end Verdict
