/-
Binary floating-point numbers of 64 bits.

A number is its interchange encoding: a sign bit above a magnitude of 63 bits.
Magnitudes are numbered in the order of the absolute values they stand for, with
the infinities after every finite number and the NaNs after the infinities, so
comparing two numbers is comparing two integers (`Binary64.key`) once NaN is out
of the way.  No arithmetic is needed: numbers are read, compared and written.

* `Binary64.equals`: the equality of numbers, where both zeros are the same;
* `Binary64.partialCompare`: the order of numbers, undefined where NaN takes part;
* `Binary64.nearest`: the number closest to a fraction, ties to even.
-/
namespace Verdict

/-- A floating-point number in its 64-bit interchange encoding. -/
structure Binary64 where
  /-- Sign bit, eleven exponent bits, 52 fraction bits. -/
  bits : UInt64
deriving DecidableEq, Repr

namespace Binary64

/-- The weight of the sign bit. -/
def signBit : Nat := 0x8000000000000000

/-- The number of magnitudes from a power of two to the next one, which is the
weight of the last bit of the exponent field. -/
def binade : Nat := 0x10000000000000

/-- The magnitude of the infinities; NaNs lie above it, finite numbers below. -/
def infinityMagnitude : Nat := 0x7FF * binade

/-- The sign bit is set. -/
def isNegative (x : Binary64) : Bool := signBit ≤ x.bits.toNat

/-- The encoding without its sign bit. -/
def magnitude (x : Binary64) : Nat := x.bits.toNat % signBit

/-- `x` is none of the numbers, finite or infinite. -/
def isNaN (x : Binary64) : Bool := infinityMagnitude < x.magnitude

/-- `x` is neither infinite nor NaN. -/
def isFinite (x : Binary64) : Bool := x.magnitude < infinityMagnitude

/-- The number with the given sign and magnitude. -/
def ofMagnitude (negative : Bool) (magnitude : Nat) : Binary64 :=
  ⟨.ofNat (magnitude % signBit + if negative then signBit else 0)⟩

/-- Whether `x` and `y` are the same number.  The two zeros are, and a NaN is the
same as nothing, not even as itself. -/
def equals (x y : Binary64) : Bool :=
  !x.isNaN && !y.isNaN && (x == y || x.magnitude == 0 && y.magnitude == 0)

/-- Position of `x` in the order of numbers: both zeros are at 0. -/
def key (x : Binary64) : Int :=
  if x.isNegative then -(x.magnitude : Int) else x.magnitude

/-- The order of numbers; nothing is known about NaN, not even that it equals
itself. -/
def partialCompare (x y : Binary64) : Option Ordering :=
  if x.isNaN || y.isNaN then none else some (compare x.key y.key)

/-! ## The value of a finite number -/

/-- A finite number is `significand * 2 ^ exponent`, up to its sign. -/
def significand (x : Binary64) : Nat :=
  if x.magnitude / binade = 0 then x.magnitude else x.magnitude % binade + binade

/-- The exponent of two of the last bit of `significand`. -/
def exponent (x : Binary64) : Int :=
  (max (x.magnitude / binade) 1 : Nat) - 1075

/-! ## Rounding -/

/-- The integer closest to `num / den`, an even one where two are. -/
def roundHalfEven (num den : Nat) : Nat :=
  let floor := num / den
  let twice := 2 * (num % den)
  if twice < den || (twice == den && floor % 2 == 0) then floor else floor + 1

/-- `num / den` as a multiple of `2 ^ q`: the fraction to be rounded. -/
def scaleDown (num den : Nat) (q : Int) : Nat × Nat :=
  (num <<< (-q).toNat, den <<< q.toNat)

/-- The largest `e` with `2 ^ e ≤ num / den`. -/
def floorLog2 (num den : Nat) : Int :=
  let e : Int := (num.log2 : Int) - den.log2
  let (a, b) := scaleDown num den e
  if a < b then e - 1 else e

/-- The magnitude closest to `num / den`.  The last bit kept is worth
`2 ^ (e - 52)` for a number in `[2 ^ e, 2 ^ (e + 1))`, but never less than
`2 ^ (-1074)`.  A significand that is rounded up to the next power of two carries
into the exponent field by itself, and what lies beyond the largest finite number
is infinite. -/
def nearestMagnitude (num den : Nat) : Nat :=
  let q := max (floorLog2 num den - 52) (-1074)
  let (a, b) := scaleDown num den q
  min ((q + 1074).toNat * binade + roundHalfEven a b) infinityMagnitude

/-- The number closest to `± num / den`, for a positive `den`. -/
def nearest (negative : Bool) (num den : Nat) : Binary64 :=
  ofMagnitude negative (if num = 0 then 0 else nearestMagnitude num den)

end Binary64
end Verdict
