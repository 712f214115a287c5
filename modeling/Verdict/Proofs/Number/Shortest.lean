import Verdict.Proofs.Number.Numeral
import Verdict.Proofs.Number.Rounding
/-
The shortest decimal, read back.

On the grid of 17 digits two neighbours are so close to each other that one of them lies in the
interval of the number between them; so a decimal is found at last.  Whichever decimal is taken
lies in the interval, and is rounded to the number again.  That holds of every decimal of the same
size (`Decimal.toBinary64_of_size_eq`), so it does not matter how the decimal is written
(`Value.finiteNumber?_write`).
-/
namespace Verdict

namespace Binary64

open Decimal (tenTo)

/-! ## Points of a grid -/

namespace Interval

variable {i : Interval} {g : Int} {tie : Tie}

lemma tenTo_pos (n : Nat) : 0 < tenTo n := Nat.pow_pos (by norm_num)

/-- The last point of the grid that is not above the number. -/
def floor (i : Interval) (g : Int) : Nat := i.mid * tenTo (-g).toNat / (i.den * tenTo g.toNat)

lemma mul_ten_zpow (r : ℚ) (g : Int) :
    r * 10 ^ g = r * (tenTo g.toNat : Nat) / (tenTo (-g).toNat : Nat) := by
  rw [zpow_eq_div (by norm_num), mul_div_assoc]
  simp [tenTo]

/-- The comparison of a point of the grid with the ends of the interval. -/
def within (i : Interval) (g : Int) (n : Nat) : Bool :=
  if i.closed then i.low * tenTo (-g).toNat ≤ n * (i.den * tenTo g.toNat) &&
    n * (i.den * tenTo g.toNat) ≤ i.high * tenTo (-g).toNat
  else i.low * tenTo (-g).toNat < n * (i.den * tenTo g.toNat) &&
    n * (i.den * tenTo g.toNat) < i.high * tenTo (-g).toNat

lemma within_iff (hden : 0 < i.den) (n : Nat) :
    i.within g n = true ↔ i.Contains (n * 10 ^ g) := by
  have hup : (0 : ℚ) < (tenTo (-g).toNat : Nat) := by exact_mod_cast tenTo_pos _
  have hdenq : (0 : ℚ) < i.den := by exact_mod_cast hden
  rw [within, Contains, mul_ten_zpow]
  split_ifs
  · rw [div_le_div_iff₀ hdenq hup, div_le_div_iff₀ hup hdenq, mul_assoc, mul_comm (tenTo _ : ℚ),
      Bool.and_eq_true, decide_eq_true_eq, decide_eq_true_eq]
    exact_mod_cast Iff.rfl
  · rw [div_lt_div_iff₀ hdenq hup, div_lt_div_iff₀ hup hdenq, mul_assoc, mul_comm (tenTo _ : ℚ),
      Bool.and_eq_true, decide_eq_true_eq, decide_eq_true_eq]
    exact_mod_cast Iff.rfl

/-- One of the two neighbours on the grid is taken, if one lies in the interval; which of them is
tried first depends on the format. -/
lemma onGrid?_eq (i : Interval) (tie : Tie) (g : Int) :
    ∃ lowerFirst : Bool, i.onGrid? tie g =
      if lowerFirst then
        if i.within g (i.floor g) then some (i.floor g)
        else if i.within g (i.floor g + 1) then some (i.floor g + 1) else none
      else
        if i.within g (i.floor g + 1) then some (i.floor g + 1)
        else if i.within g (i.floor g) then some (i.floor g) else none :=
  ⟨_, rfl⟩

lemma contains_of_onGrid? (hden : 0 < i.den) {n : Nat} (h : i.onGrid? tie g = some n) :
    i.Contains (n * 10 ^ g) := by
  rw [← within_iff hden]
  obtain ⟨lowerFirst, heq⟩ := i.onGrid?_eq tie g
  rw [heq] at h
  split_ifs at h <;> simp_all

lemma exists_onGrid? (hden : 0 < i.den) (tie : Tie)
    (h : i.Contains (i.floor g * 10 ^ g) ∨ i.Contains ((i.floor g + 1) * 10 ^ g)) :
    ∃ n, i.onGrid? tie g = some n := by
  have hwithin : i.within g (i.floor g) = true ∨ i.within g (i.floor g + 1) = true := by
    rw [within_iff hden, within_iff hden]
    exact_mod_cast h
  obtain ⟨lowerFirst, heq⟩ := i.onGrid?_eq tie g
  rw [heq]
  split_ifs <;> simp_all

/-- A number lies between its two neighbours on the grid. -/
lemma floor_bounds (hden : 0 < i.den) (g : Int) :
    i.floor g * 10 ^ g ≤ (i.mid / i.den : ℚ) ∧ (i.mid / i.den : ℚ) < (i.floor g + 1) * 10 ^ g := by
  have hup : (0 : ℚ) < (tenTo (-g).toNat : Nat) := by exact_mod_cast tenTo_pos _
  have hdenq : (0 : ℚ) < i.den := by exact_mod_cast hden
  have hstep : 0 < i.den * tenTo g.toNat := Nat.mul_pos hden (tenTo_pos _)
  have hlow : i.floor g * (i.den * tenTo g.toNat) ≤ i.mid * tenTo (-g).toNat :=
    Nat.div_mul_le_self _ _
  have hhigh : i.mid * tenTo (-g).toNat < (i.floor g + 1) * (i.den * tenTo g.toNat) := by
    rw [mul_comm (i.floor g + 1)]
    exact Nat.lt_mul_div_succ _ hstep
  rw [mul_ten_zpow, mul_ten_zpow]
  constructor
  · rw [div_le_div_iff₀ hup hdenq, mul_assoc, mul_comm (tenTo _ : ℚ)]
    exact_mod_cast hlow
  · rw [div_lt_div_iff₀ hdenq hup, mul_assoc (_ + 1 : ℚ), mul_comm (tenTo g.toNat : ℚ)]
    exact_mod_cast hhigh

end Interval

/-! ## The grid of 17 digits -/

variable {x : Binary64}

lemma den_pos (x : Binary64) : 0 < x.interval.den := by
  simp only [interval, Nat.shiftLeft_eq, one_mul]
  positivity

/-- The logarithm of two to base ten is a little less than 0.30103, but too little to matter for
the powers of two that numbers are made of. -/
lemma ten_zpow_le_two_zpow {e : Int} (hlow : -1074 ≤ e) (hhigh : e ≤ 1023) :
    (10 : ℚ) ^ (e * 30103 / 100000) ≤ 2 ^ e := by
  have habove : ∀ n < 1024, 10 ^ (n * 30103 / 100000) ≤ 2 ^ n := by decide +kernel
  have hbelow : ∀ n < 1075, 2 ^ n ≤ 10 ^ ((n * 30103 + 99999) / 100000) := by decide +kernel
  rcases le_total 0 e with he | he
  · obtain ⟨n, rfl⟩ := Int.eq_ofNat_of_zero_le he
    have hexponent : (n : Int) * 30103 / 100000 = (n * 30103 / 100000 : Nat) := by omega
    rw [hexponent, zpow_natCast, zpow_natCast]
    exact_mod_cast habove n (by omega)
  · obtain ⟨n, rfl⟩ := Int.exists_eq_neg_ofNat he
    have hexponent : -(n : Int) * 30103 / 100000 = -((n * 30103 + 99999) / 100000 : Nat) := by
      omega
    rw [hexponent, zpow_neg, zpow_neg, zpow_natCast, zpow_natCast,
      inv_le_inv₀ (by positivity) (by positivity)]
    exact_mod_cast hbelow n (by omega)

lemma contains_of_lt (hx : 0 < x.magnitude) {r : ℚ}
    (hlow : (4 * x.significand - x.stepsBelow) * 2 ^ (x.exponent - 2) < r)
    (hhigh : r < (4 * x.significand + 2) * 2 ^ (x.exponent - 2)) : x.interval.Contains r :=
  (contains_iff hx).mpr ⟨hlow.le, hhigh.le, fun _ => ⟨hlow, hhigh⟩⟩

/-- A number in quarters of a step of its grid. -/
lemma mid_div_den_eq (x : Binary64) :
    (x.interval.mid / x.interval.den : ℚ) = 4 * x.significand * 2 ^ (x.exponent - 2) := by
  rw [mid_div_den, two_zpow_eq 2 (show x.exponent = x.exponent - 2 + (2 : Nat) by push_cast; ring)]
  ring

/-- A number lies in its own interval. -/
lemma contains_self (hx : 0 < x.magnitude) :
    x.interval.Contains (x.interval.mid / x.interval.den) := by
  have hu : (0 : ℚ) < 2 ^ (x.exponent - 2) := by positivity
  have hsteps : (0 : ℚ) < x.stepsBelow := by
    rcases x.stepsBelow_cases with ⟨h, -⟩ | h <;> rw [h] <;> norm_num
  rw [mid_div_den_eq]
  refine contains_of_lt hx ?_ ?_
  · exact mul_lt_mul_of_pos_right (by linarith) hu
  · exact mul_lt_mul_of_pos_right (by linarith) hu

/-- The number has as many digits in front of its point as its position says, or more. -/
lemma ten_zpow_pointPosition_le (hx : 0 < x.magnitude) (hfinite : x.isFinite = true) :
    (10 : ℚ) ^ (x.interval.pointPosition - 1) ≤ x.interval.mid / x.interval.den := by
  have hden : (0 : ℚ) < x.interval.den := by exact_mod_cast x.den_pos
  have hpos : (0 : ℚ) < x.interval.mid / x.interval.den := pos_of_contains hx (contains_self hx)
  have hmid : 0 < x.interval.mid := by
    rw [Nat.pos_iff_ne_zero]
    intro hzero
    simp [hzero] at hpos
  have hlog := floorLog2_eq hmid x.den_pos
  have hlow : -1074 ≤ Int.log 2 (x.interval.mid / x.interval.den : ℚ) := by
    have hm : (1 : ℚ) ≤ x.significand := by exact_mod_cast x.significand_pos hx
    rw [← Int.zpow_le_iff_le_log one_lt_two hpos, mid_div_den]
    calc ((2 : Nat) : ℚ) ^ (-1074 : Int) ≤ 2 ^ x.exponent :=
          zpow_le_zpow_right₀ (by norm_num) x.le_exponent
      _ ≤ x.significand * 2 ^ x.exponent := le_mul_of_one_le_left (by positivity) hm
  have hhigh : Int.log 2 (x.interval.mid / x.interval.den : ℚ) < 1024 := by
    have hexponent := exponent_le hfinite
    rw [← Int.lt_zpow_iff_log_lt one_lt_two hpos]
    exact (lt_of_contains hx (contains_self hx)).trans_le
      (zpow_le_zpow_right₀ (by norm_num) (by omega))
  simp only [Interval.pointPosition, hlog]
  split_ifs with hlarge
  · rw [add_sub_cancel_right, ← one_mul ((10 : ℚ) ^ _), Interval.mul_ten_zpow,
      div_le_div_iff₀ (by exact_mod_cast Interval.tenTo_pos _) hden, one_mul, mul_comm]
    exact_mod_cast hlarge
  · rw [add_sub_cancel_right]
    exact (ten_zpow_le_two_zpow hlow (by omega)).trans (Int.zpow_log_le_self one_lt_two hpos)

/-- One of the neighbours on a grid lies in the interval of a number, if the number has 17 digits
on the grid. -/
lemma contains_neighbour (hx : 0 < x.magnitude) {g : Int}
    (hgrid : (10 : ℚ) ^ (g + 16) ≤ x.interval.mid / x.interval.den) :
    x.interval.Contains (x.interval.floor g * 10 ^ g) ∨
      x.interval.Contains ((x.interval.floor g + 1) * 10 ^ g) := by
  obtain ⟨hfloor, hnext⟩ := Interval.floor_bounds x.den_pos g
  have hten : (10 : ℚ) ^ (g + 16) = 10 ^ 16 * 10 ^ g := by
    rw [zpow_add₀ (by norm_num), mul_comm]
    norm_num
  have hu : (0 : ℚ) < 2 ^ (x.exponent - 2) := by positivity
  rw [mid_div_den_eq] at hgrid hfloor hnext
  rw [hten] at hgrid
  rcases x.stepsBelow_cases with ⟨hsteps, hbinade⟩ | hsteps
  · -- the neighbour above is less than half a step of the number away
    have hm : (x.significand : ℚ) = 2 ^ 52 := by rw [hbinade]; norm_num [binade]
    right
    rw [hm] at hgrid hnext hfloor
    refine contains_of_lt hx ?_ ?_
    · rw [hsteps, hm]
      push_cast
      linarith
    · rw [hm]
      linarith
  · -- the neighbours are less than a step of the number apart, so one is less than half a step away
    have hm : (x.significand : ℚ) + 1 ≤ 2 ^ 53 := by exact_mod_cast x.significand_lt
    have hmu := mul_le_mul_of_nonneg_right hm hu.le
    by_cases hnear : (4 * x.significand - 2) * 2 ^ (x.exponent - 2) <
      (x.interval.floor g * 10 ^ g : ℚ)
    · left
      refine contains_of_lt hx ?_ ?_
      · rw [hsteps]
        exact hnear
      · linarith
    · right
      refine contains_of_lt hx ?_ ?_
      · rw [hsteps]
        push_cast
        linarith
      · linarith

/-! ## The shortest decimal -/

lemma stripZeros_eq (c : Nat) (g : Int) :
    ((stripZeros c g).1 : ℚ) * 10 ^ (stripZeros c g).2 = c * 10 ^ g := by
  fun_induction stripZeros c g with
  | case1 c g h ih =>
    obtain ⟨k, rfl⟩ := Nat.dvd_of_mod_eq_zero h.2
    rw [ih, Nat.mul_div_cancel_left k (by norm_num), zpow_add₀ (by norm_num)]
    push_cast
    ring
  | case2 => rfl

lemma negative_shortest (tie : Tie) (x : Binary64) : (x.shortest tie).negative = x.isNegative := by
  rw [shortest]
  split_ifs <;> rfl

/-- The shortest decimal lies in the interval of the number. -/
lemma contains_shortest (tie : Tie) (hx : 0 < x.magnitude) (hfinite : x.isFinite = true) :
    x.interval.Contains (x.shortest tie).size := by
  have hgrid : (10 : ℚ) ^ (x.interval.pointPosition - 17 + 16) ≤
      x.interval.mid / x.interval.den := by
    rw [show x.interval.pointPosition - 17 + 16 = x.interval.pointPosition - 1 by ring]
    exact ten_zpow_pointPosition_le hx hfinite
  obtain ⟨c, hc⟩ := Interval.exists_onGrid? x.den_pos tie (contains_neighbour hx hgrid)
  obtain ⟨⟨c', g⟩, hfound⟩ : ∃ found, (List.range' 1 17).findSome? (fun n : Nat =>
      (x.interval.onGrid? tie (x.interval.pointPosition - n)).map fun c =>
        (c, x.interval.pointPosition - n)) = some found := by
    rw [← Option.isSome_iff_exists, List.findSome?_isSome_iff]
    exact ⟨17, by decide, by simp [hc]⟩
  have hcontains : x.interval.Contains (c' * 10 ^ g) := by
    obtain ⟨n, -, hn⟩ := List.exists_of_findSome?_eq_some hfound
    obtain ⟨c'', hc'', heq⟩ := Option.map_eq_some_iff.mp hn
    obtain ⟨rfl, rfl⟩ := Prod.mk.inj heq
    exact Interval.contains_of_onGrid? x.den_pos hc''
  simp only [shortest, hx.ne', if_false, hfound, Option.getD_some, Decimal.size, stripZeros_eq]
  exact hcontains

end Binary64

namespace Decimal

open Binary64

variable {x : Binary64} {tie : Tie}

/-- A decimal with the sign and the size of the shortest one is rounded to the number. -/
lemma toBinary64_of_size_eq {d : Decimal} (hfinite : x.isFinite = true)
    (hnegative : d.negative = x.isNegative) (hsize : d.size = (x.shortest tie).size) :
    d.toBinary64 = x := by
  rcases Nat.eq_zero_or_pos x.magnitude with hzero | hpos
  · have hcoefficient : d.coefficient = 0 := by
      have hten : (10 : ℚ) ^ d.exponent ≠ 0 := by positivity
      simpa [shortest, hzero, size, hten] using hsize
    rw [toBinary64, if_pos hcoefficient, hnegative, ← hzero, ofMagnitude_magnitude]
  · exact toBinary64_of_contains hfinite hpos hnegative
      (hsize ▸ contains_shortest tie hpos hfinite)

/-- A power of ten is written as zeros if it is whole, and as a place of the point otherwise. -/
lemma size_positional (d : Decimal) :
    size ⟨d.negative, d.coefficient * 10 ^ d.exponent.toNat, min d.exponent 0⟩ = d.size := by
  have hsplit : d.exponent = (d.exponent.toNat : Int) + min d.exponent 0 := by omega
  calc size ⟨d.negative, d.coefficient * 10 ^ d.exponent.toNat, min d.exponent 0⟩
      = d.coefficient * (10 ^ (d.exponent.toNat : Int) * 10 ^ min d.exponent 0) := by
        rw [size, zpow_natCast, ← mul_assoc]
        push_cast
        rfl
    _ = d.size := by
        rw [← zpow_add₀ (by norm_num), ← hsplit, size]

end Decimal

namespace Value

variable {x : Binary64}

lemma finiteNumber?_of_ofText? {cs : List Char} {d : Decimal} (hfinite : x.isFinite = true)
    (htext : Decimal.ofText? cs = some d) (hd : d.toBinary64 = x) : finiteNumber? cs = some x := by
  rw [finiteNumber?, htext, Option.map_some, hd, Option.filter_some, if_pos hfinite]

/-- **A finite number is read from its digits.** -/
theorem finiteNumber?_write (hfinite : x.isFinite = true) :
    finiteNumber? (x.write numberFormat).toList = some x := by
  have hwrite : x.write numberFormat = (x.shortest .up).write numberFormat := by
    rw [Binary64.write, x.isNaN_of_isFinite hfinite, if_neg Bool.false_ne_true, if_pos hfinite]
    rfl
  rw [hwrite]
  exact finiteNumber?_of_ofText? hfinite (Decimal.ofText?_write _)
    (Decimal.toBinary64_of_size_eq hfinite (Binary64.negative_shortest .up x)
      (Decimal.size_positional _))

end Value
end Verdict
