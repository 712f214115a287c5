import Mathlib.Algebra.Order.Field.Power
import Mathlib.Data.Int.Log
import Mathlib.Data.Rat.Floor
import Mathlib.Tactic.FieldSimp
import Mathlib.Tactic.Linarith
import Mathlib.Tactic.NormNum
import Mathlib.Tactic.Positivity
import Mathlib.Tactic.Ring
import Verdict.Number.Shortest
/-
Rounding to floating-point numbers.

All reals between the points halfway to its neighbours are rounded to a number, and these points
are too where the significand of the number is even (`Binary64.nearestMagnitude_of_contains`).

A fraction is rounded on the grid of its own size.  Only in front of a power of two is this a finer
one than the grid of the number that it is rounded to; the significand is then rounded up to the
power of two, which is carried into the exponent.
-/
namespace Verdict

/-- An integer power, written with a power above and one below the line. -/
lemma zpow_eq_div {b : ℚ} (hb : b ≠ 0) (q : Int) : b ^ q = b ^ q.toNat / b ^ (-q).toNat := by
  rw [← zpow_natCast, ← zpow_natCast, ← zpow_sub₀ hb, Int.toNat_sub_toNat_neg]

namespace Binary64

/-! ## Sizes of fractions -/

section Fraction

variable {num den : Nat}

lemma scaleDown_pos (num : Nat) (hden : 0 < den) (q : Int) : 0 < (scaleDown num den q).2 := by
  simp only [scaleDown, Nat.shiftLeft_eq]
  exact Nat.mul_pos hden (Nat.two_pow_pos _)

lemma scaleDown_eq (num den : Nat) (q : Int) :
    ((scaleDown num den q).1 : ℚ) / (scaleDown num den q).2 = (num / den : ℚ) / 2 ^ q := by
  rw [zpow_eq_div two_ne_zero]
  simp only [scaleDown, Nat.shiftLeft_eq]
  push_cast
  rw [div_div_eq_mul_div, div_mul_eq_mul_div, div_div]

lemma log2_bounds {n : Nat} (hn : 0 < n) :
    (2 : ℚ) ^ (n.log2 : Int) ≤ n ∧ (n : ℚ) < 2 ^ (n.log2 + 1 : Int) := by
  constructor
  · exact_mod_cast Nat.log2_self_le hn.ne'
  · exact_mod_cast Nat.lt_log2_self

/-- The logarithms of the numerator and the denominator tell that of the fraction up to one. -/
lemma div_bounds (hnum : 0 < num) (hden : 0 < den) :
    (2 : ℚ) ^ ((num.log2 : Int) - den.log2 - 1) < num / den ∧
      (num / den : ℚ) < 2 ^ ((num.log2 : Int) - den.log2 + 1) := by
  have hdenq : (0 : ℚ) < den := by exact_mod_cast hden
  obtain ⟨hnum1, hnum2⟩ := log2_bounds hnum
  obtain ⟨hden1, hden2⟩ := log2_bounds hden
  constructor
  · rw [lt_div_iff₀ hdenq]
    calc (2 : ℚ) ^ ((num.log2 : Int) - den.log2 - 1) * den
        < 2 ^ ((num.log2 : Int) - den.log2 - 1) * 2 ^ (den.log2 + 1 : Int) := by gcongr
      _ = 2 ^ (num.log2 : Int) := by rw [← zpow_add₀ two_ne_zero]; congr 1; ring
      _ ≤ num := hnum1
  · rw [div_lt_iff₀ hdenq]
    calc (num : ℚ) < 2 ^ (num.log2 + 1 : Int) := hnum2
      _ = 2 ^ ((num.log2 : Int) - den.log2 + 1) * 2 ^ (den.log2 : Int) := by
        rw [← zpow_add₀ two_ne_zero]; congr 1; ring
      _ ≤ 2 ^ ((num.log2 : Int) - den.log2 + 1) * den := by gcongr

lemma scaleDown_lt_iff (num : Nat) (hden : 0 < den) (q : Int) :
    (scaleDown num den q).1 < (scaleDown num den q).2 ↔ (num / den : ℚ) < 2 ^ q := by
  have hpow : (0 : ℚ) < 2 ^ q := by positivity
  have hden' : (0 : ℚ) < (scaleDown num den q).2 := by exact_mod_cast scaleDown_pos num hden q
  rw [← div_lt_one hpow, ← scaleDown_eq, div_lt_one hden', Nat.cast_lt]

lemma floorLog2_eq (hnum : 0 < num) (hden : 0 < den) :
    floorLog2 num den = Int.log 2 (num / den : ℚ) := by
  have hpos : (0 : ℚ) < num / den := by positivity
  have htwo {q : Int} : ((2 : Nat) : ℚ) ^ q = 2 ^ q := by norm_num
  obtain ⟨hlow, hhigh⟩ := div_bounds hnum hden
  have hlog1 : (num.log2 : Int) - den.log2 - 1 ≤ Int.log 2 (num / den : ℚ) :=
    (Int.zpow_le_iff_le_log one_lt_two hpos).mp (by rw [htwo]; exact hlow.le)
  have hlog2 : Int.log 2 (num / den : ℚ) < (num.log2 : Int) - den.log2 + 1 :=
    (Int.lt_zpow_iff_log_lt one_lt_two hpos).mp (by rwa [htwo])
  simp only [floorLog2, scaleDown_lt_iff num hden, ← htwo, Int.lt_zpow_iff_log_lt one_lt_two hpos]
  split_ifs <;> omega

/-- A fraction is rounded to an integer that is at most one half away, and even if it is just one
half away. -/
lemma roundHalfEven_eq {n : Nat} (hden : 0 < den) (hlow : 2 * (n * den) ≤ 2 * num + den)
    (hhigh : 2 * num ≤ 2 * (n * den) + den)
    (htie : n % 2 = 1 → 2 * (n * den) < 2 * num + den ∧ 2 * num < 2 * (n * den) + den) :
    roundHalfEven num den = n := by
  have hsplit : num / den * den + num % den = num := Nat.div_add_mod' num den
  have hrest : num % den < den := Nat.mod_lt num hden
  have hfloor : num / den = n ∨ num / den + 1 = n := by
    by_contra hne
    rcases lt_or_ge n (num / den) with hlt | hge
    · have := Nat.mul_le_mul_right den (show n + 1 ≤ num / den from hlt)
      rw [Nat.add_mul] at this
      omega
    · have := Nat.mul_le_mul_right den (show num / den + 2 ≤ n by omega)
      rw [Nat.add_mul] at this
      omega
  simp only [roundHalfEven, Bool.or_eq_true, Bool.and_eq_true, decide_eq_true_eq, beq_iff_eq]
  rcases hfloor with hfloor | hfloor
  · rw [hfloor] at hsplit ⊢
    rw [if_pos (by omega)]
  · have hnext : n * den = num / den * den + den := by rw [← hfloor, Nat.add_mul, Nat.one_mul]
    rw [if_neg (by omega), hfloor]

/-- A fraction is rounded to `n` on the grid of `2 ^ q` if it is at most half a step away. -/
lemma roundHalfEven_scaleDown (num : Nat) (hden : 0 < den) {q : Int} {n : Nat}
    (hlow : (2 * n - 1) * 2 ^ q ≤ 2 * (num / den : ℚ))
    (hhigh : 2 * (num / den : ℚ) ≤ (2 * n + 1) * 2 ^ q)
    (htie : n % 2 = 1 → (2 * n - 1) * 2 ^ q < 2 * (num / den : ℚ) ∧
      2 * (num / den : ℚ) < (2 * n + 1) * 2 ^ q) :
    roundHalfEven (scaleDown num den q).1 (scaleDown num den q).2 = n := by
  have hden' : 0 < (scaleDown num den q).2 := scaleDown_pos num hden q
  have hscale := scaleDown_eq num den q
  generalize (scaleDown num den q).1 = a, (scaleDown num den q).2 = b at hden' hscale
  have hpow : (0 : ℚ) < 2 ^ q := by positivity
  have hb : (0 : ℚ) < b := by exact_mod_cast hden'
  -- both sides of the scaled fraction have grown by the same factor
  obtain ⟨s, hs, hbs, has⟩ : ∃ s : ℚ, 0 < s ∧ b = s * 2 ^ q ∧ a = s * (num / den) := by
    refine ⟨b / 2 ^ q, by positivity, by field_simp, ?_⟩
    rw [div_eq_iff hb.ne'] at hscale
    rw [hscale]
    ring
  refine roundHalfEven_eq hden' ?_ ?_ ?_
  · have := mul_le_mul_of_nonneg_left hlow hs.le
    have hq : (2 * (n * b) : ℚ) ≤ 2 * a + b := by rw [hbs, has]; linarith
    exact_mod_cast hq
  · have := mul_le_mul_of_nonneg_left hhigh hs.le
    have hq : (2 * a : ℚ) ≤ 2 * (n * b) + b := by rw [hbs, has]; linarith
    exact_mod_cast hq
  · intro hodd
    obtain ⟨hlow, hhigh⟩ := htie hodd
    have := mul_lt_mul_of_pos_left hlow hs
    have := mul_lt_mul_of_pos_left hhigh hs
    have hq : (2 * (n * b) : ℚ) < 2 * a + b ∧ (2 * a : ℚ) < 2 * (n * b) + b := by
      rw [hbs, has]
      constructor <;> linarith
    exact_mod_cast hq

end Fraction

/-! ## Numbers and the reals around them -/

section Number

variable (x : Binary64)

lemma magnitude_eq : x.magnitude = (x.exponent + 1074).toNat * binade + x.significand := by
  have hsplit : x.magnitude / binade * binade + x.magnitude % binade = x.magnitude :=
    Nat.div_add_mod' _ _
  rw [exponent, significand]
  split_ifs with hzero
  · rw [hzero]
    simp
  · obtain ⟨k, hk⟩ := Nat.exists_eq_succ_of_ne_zero hzero
    have hexponent : (((max (x.magnitude / binade) 1 : Nat) : Int) - 1075 + 1074).toNat = k := by
      omega
    rw [hexponent]
    rw [hk, Nat.succ_eq_add_one, Nat.add_mul] at hsplit
    omega

lemma le_exponent : -1074 ≤ x.exponent := by
  rw [exponent]
  omega

lemma significand_lt : x.significand < 2 * binade := by
  have hmod : x.magnitude % binade < binade := Nat.mod_lt _ (by decide)
  rw [significand]
  split_ifs with hzero
  · have hlt : x.magnitude < binade := (Nat.div_eq_zero_iff_lt (by decide)).mp hzero
    omega
  · omega

lemma one_lt_div_iff : 1 < x.magnitude / binade ↔ -1074 < x.exponent := by
  rw [exponent]
  omega

lemma binade_le_significand (h : -1074 < x.exponent) : binade ≤ x.significand := by
  have hfield := (one_lt_div_iff x).mpr h
  rw [significand, if_neg (by omega)]
  omega

lemma significand_pos (h : 0 < x.magnitude) : 0 < x.significand := by
  rw [significand]
  split_ifs with hzero
  · exact h
  · exact Nat.add_pos_right _ (by decide)

lemma isNaN_of_isFinite (h : x.isFinite = true) : x.isNaN = false :=
  decide_eq_false (Nat.not_lt.mpr (of_decide_eq_true h).le)

end Number

/-- The interval contains the real. -/
def Interval.Contains (i : Interval) (r : ℚ) : Prop :=
  if i.closed then (i.low / i.den : ℚ) ≤ r ∧ r ≤ i.high / i.den
  else (i.low / i.den : ℚ) < r ∧ r < i.high / i.den

/-- How far the interval of `x` reaches down, in quarters of a step of its grid. -/
def stepsBelow (x : Binary64) : Nat :=
  if x.significand = binade && 1 < x.magnitude / binade then 1 else 2

section Interval

variable {x : Binary64} {r : ℚ}

lemma shift_div_shift (n : Nat) (q : Int) :
    ((n <<< q.toNat : Nat) : ℚ) / ((1 <<< (-q).toNat : Nat) : ℚ) = n * 2 ^ q := by
  rw [zpow_eq_div two_ne_zero, Nat.shiftLeft_eq, Nat.shiftLeft_eq, one_mul]
  push_cast
  rw [mul_div_assoc]

lemma low_div_den (hx : 0 < x.magnitude) :
    (x.interval.low : ℚ) / x.interval.den =
      (4 * x.significand - x.stepsBelow) * 2 ^ (x.exponent - 2) := by
  have hpos := x.significand_pos hx
  have hsteps : x.stepsBelow ≤ 4 * x.significand := by
    rw [stepsBelow]
    split_ifs <;> omega
  have hcast : ((4 * x.significand - x.stepsBelow : Nat) : ℚ) =
      4 * x.significand - x.stepsBelow := by
    push_cast [hsteps]
    rfl
  rw [← hcast, ← shift_div_shift]
  rfl

lemma high_div_den (x : Binary64) :
    (x.interval.high : ℚ) / x.interval.den =
      (4 * x.significand + 2) * 2 ^ (x.exponent - 2) := by
  have hcast : ((4 * x.significand + 2 : Nat) : ℚ) = 4 * x.significand + 2 := by push_cast; rfl
  rw [← hcast, ← shift_div_shift]
  rfl

lemma mid_div_den (x : Binary64) :
    (x.interval.mid : ℚ) / x.interval.den = x.significand * 2 ^ x.exponent := by
  have hcast : ((4 * x.significand : Nat) : ℚ) = 4 * x.significand := by push_cast; rfl
  have hpow : (2 : ℚ) ^ x.exponent = 4 * 2 ^ (x.exponent - 2) := by
    rw [zpow_sub₀ two_ne_zero]
    norm_num
    ring
  rw [hpow, mul_left_comm, ← mul_assoc, ← hcast, ← shift_div_shift]
  rfl

/-- The interval of a number in quarters of a step of its grid; an end belongs to it only if the
significand is even. -/
lemma contains_iff (hx : 0 < x.magnitude) :
    x.interval.Contains r ↔
      (4 * x.significand - x.stepsBelow) * 2 ^ (x.exponent - 2) ≤ r ∧
      r ≤ (4 * x.significand + 2) * 2 ^ (x.exponent - 2) ∧
      (x.significand % 2 = 1 → (4 * x.significand - x.stepsBelow) * 2 ^ (x.exponent - 2) < r ∧
        r < (4 * x.significand + 2) * 2 ^ (x.exponent - 2)) := by
  rw [Interval.Contains, low_div_den hx, high_div_den]
  rcases Nat.mod_two_eq_zero_or_one x.significand with heven | hodd
  · have hclosed : x.interval.closed = true := by simp [interval, heven]
    simp [hclosed, heven]
  · have hclosed : x.interval.closed = false := by simp [interval, hodd]
    simp only [hclosed, Bool.false_eq_true, if_false, hodd, true_imp_iff]
    exact ⟨fun h => ⟨h.1.le, h.2.le, h⟩, fun h => h.2.2⟩

lemma stepsBelow_cases (x : Binary64) :
    (x.stepsBelow = 1 ∧ x.significand = binade) ∨ x.stepsBelow = 2 := by
  rw [stepsBelow]
  split_ifs with h
  · simp only [Bool.and_eq_true, decide_eq_true_eq] at h
    exact Or.inl ⟨rfl, h.1⟩
  · exact Or.inr rfl

lemma stepsBelow_le_two (x : Binary64) : x.stepsBelow ≤ 2 := by
  rcases x.stepsBelow_cases with ⟨h, -⟩ | h <;> omega

lemma stepsBelow_eq_one (hm : x.significand = binade) (he : -1074 < x.exponent) :
    x.stepsBelow = 1 := by
  rw [stepsBelow, if_pos]
  simpa [hm] using x.one_lt_div_iff.mpr he

/-! ## Rounding -/

/-- What is rounded on the grid of a finite number to its significand is rounded to the number. -/
lemma nearestMagnitude_eq {num den : Nat} {q : Int} {n : Nat} (hfinite : x.isFinite = true)
    (hq : max (floorLog2 num den - 52) (-1074) = q)
    (hn : roundHalfEven (scaleDown num den q).1 (scaleDown num den q).2 = n)
    (hmagnitude : (q + 1074).toNat * binade + n = x.magnitude) :
    nearestMagnitude num den = x.magnitude := by
  have hle : x.magnitude ≤ infinityMagnitude := (of_decide_eq_true hfinite).le
  simp only [nearestMagnitude, hq, hn, hmagnitude]
  exact Nat.min_eq_left hle

lemma two_zpow_eq {e q : Int} (k : Nat) (hq : q = e - 2 + k) :
    (2 : ℚ) ^ q = 2 ^ k * 2 ^ (e - 2) := by
  rw [hq, zpow_add₀ two_ne_zero, zpow_natCast, mul_comm]

/-- The interval reaches down by no more than half a step. -/
lemma half_le_low (x : Binary64) :
    (4 * x.significand - 2 : ℚ) * 2 ^ (x.exponent - 2) ≤
      (4 * x.significand - x.stepsBelow) * 2 ^ (x.exponent - 2) := by
  have hsteps : (x.stepsBelow : ℚ) ≤ 2 := by exact_mod_cast x.stepsBelow_le_two
  refine mul_le_mul_of_nonneg_right ?_ (by positivity)
  linarith

lemma le_of_contains (hx : 0 < x.magnitude) (h : x.interval.Contains r) :
    2 ^ (x.exponent - 1) ≤ r := by
  have hm : (1 : ℚ) ≤ x.significand := by exact_mod_cast x.significand_pos hx
  have hu : (0 : ℚ) < 2 ^ (x.exponent - 2) := by positivity
  have hlow := x.half_le_low.trans ((contains_iff hx).mp h).1
  have := mul_le_mul_of_nonneg_right hm hu.le
  rw [two_zpow_eq 1 (show x.exponent - 1 = x.exponent - 2 + (1 : Nat) by push_cast; ring)]
  linarith

lemma pos_of_contains (hx : 0 < x.magnitude) (h : x.interval.Contains r) : 0 < r :=
  lt_of_lt_of_le (by positivity) (le_of_contains hx h)

lemma lt_of_contains (hx : 0 < x.magnitude) (h : x.interval.Contains r) :
    r < 2 ^ (x.exponent + 53) := by
  have hm : (x.significand : ℚ) + 1 ≤ 2 ^ 53 := by exact_mod_cast x.significand_lt
  have hu : (0 : ℚ) < 2 ^ (x.exponent - 2) := by positivity
  have := mul_le_mul_of_nonneg_right hm hu.le
  have hhigh := ((contains_iff hx).mp h).2.1
  rw [two_zpow_eq 55 (show x.exponent + 53 = x.exponent - 2 + (55 : Nat) by push_cast; ring)]
  linarith

/-- On the grid of a number, the reals of its interval are closest to its significand. -/
lemma roundHalfEven_of_contains {num den : Nat} (hden : 0 < den) (hx : 0 < x.magnitude)
    (h : x.interval.Contains (num / den)) :
    roundHalfEven (scaleDown num den x.exponent).1 (scaleDown num den x.exponent).2 =
      x.significand := by
  obtain ⟨hlow, hhigh, hodd⟩ := (contains_iff hx).mp h
  have hhalf := x.half_le_low
  have hstep := two_zpow_eq 2 (show x.exponent = x.exponent - 2 + (2 : Nat) by push_cast; ring)
  refine roundHalfEven_scaleDown num hden ?_ ?_ ?_
  · rw [hstep]
    linarith
  · rw [hstep]
    linarith
  · intro hm
    obtain ⟨hlow, hhigh⟩ := hodd hm
    rw [hstep]
    constructor <;> linarith

/-- Below the power of two that is its significand, the grid of the reals in the interval of a
number is finer than the grid of the number, and they are closest to twice the significand. -/
lemma roundHalfEven_of_contains_of_lt {num den : Nat} (hden : 0 < den) (hx : 0 < x.magnitude)
    (h : x.interval.Contains (num / den)) (he : -1074 < x.exponent)
    (hlt : (num / den : ℚ) < 2 ^ (x.exponent + 52)) :
    x.significand = binade ∧ (2 : ℚ) ^ (x.exponent + 51) ≤ num / den ∧
      roundHalfEven (scaleDown num den (x.exponent - 1)).1
        (scaleDown num den (x.exponent - 1)).2 = 2 * binade := by
  obtain ⟨hlow, -, -⟩ := (contains_iff hx).mp h
  have hhalf := x.half_le_low
  have hu : (0 : ℚ) < 2 ^ (x.exponent - 2) := by positivity
  rw [two_zpow_eq 54 (show x.exponent + 52 = x.exponent - 2 + (54 : Nat) by push_cast; ring)]
    at hlt
  have hm : x.significand = binade := by
    refine le_antisymm (Nat.le_of_not_lt fun hgt => ?_) (x.binade_le_significand he)
    have hgt' : (2 ^ 52 + 1 : ℚ) ≤ x.significand := by exact_mod_cast hgt
    have := mul_le_mul_of_nonneg_right hgt' hu.le
    linarith
  have hmq : (x.significand : ℚ) = 2 ^ 52 := by rw [hm]; norm_num [binade]
  rw [hmq, stepsBelow_eq_one hm he] at hlow
  push_cast at hlow
  refine ⟨hm, ?_, ?_⟩
  · rw [two_zpow_eq 53 (show x.exponent + 51 = x.exponent - 2 + (53 : Nat) by push_cast; ring)]
    linarith
  · have hstep := two_zpow_eq 1 (show x.exponent - 1 = x.exponent - 2 + (1 : Nat) by
      push_cast; ring)
    have hbinade : ((2 * binade : Nat) : ℚ) = 2 ^ 53 := by norm_num [binade]
    refine roundHalfEven_scaleDown num hden ?_ ?_ fun hodd => absurd hodd (by decide)
    · rw [hstep, hbinade]
      linarith
    · rw [hstep, hbinade]
      linarith

/-- **Rounding.**  A fraction is rounded to every number whose interval contains it. -/
theorem nearestMagnitude_of_contains {num den : Nat} (hden : 0 < den) (hx : 0 < x.magnitude)
    (hfinite : x.isFinite = true) (h : x.interval.Contains (num / den)) :
    nearestMagnitude num den = x.magnitude := by
  have hr := pos_of_contains hx h
  have hnum : 0 < num := by
    rw [Nat.pos_iff_ne_zero]
    rintro rfl
    simp at hr
  have hlog_lt_iff (q : Int) :
      Int.log 2 (num / den : ℚ) < q ↔ (num / den : ℚ) < 2 ^ q := by
    rw [← Int.lt_zpow_iff_log_lt one_lt_two hr]
    norm_num
  have hle := x.le_exponent
  have hlog := (hlog_lt_iff _).mpr (lt_of_contains hx h)
  by_cases hcase : -1074 < x.exponent ∧ (num / den : ℚ) < 2 ^ (x.exponent + 52)
  · obtain ⟨he, hlt⟩ := hcase
    obtain ⟨hm, hge, hround⟩ := roundHalfEven_of_contains_of_lt hden hx h he hlt
    have hlog1 := (hlog_lt_iff _).mpr hlt
    have hlog2 := not_lt.mp ((hlog_lt_iff _).not.mpr (not_lt.mpr hge))
    have hq : max (floorLog2 num den - 52) (-1074) = x.exponent - 1 := by
      rw [floorLog2_eq hnum hden]
      omega
    refine nearestMagnitude_eq hfinite hq hround ?_
    -- the significand is carried into the exponent
    have hcarry : (x.exponent + 1074).toNat = (x.exponent - 1 + 1074).toNat + 1 := by omega
    rw [x.magnitude_eq, hm, hcarry, Nat.add_mul]
    omega
  · have hq : max (floorLog2 num den - 52) (-1074) = x.exponent := by
      rw [floorLog2_eq hnum hden]
      by_cases he : -1074 < x.exponent
      · have hge := not_lt.mp ((hlog_lt_iff _).not.mpr fun hlt => hcase ⟨he, hlt⟩)
        omega
      · omega
    exact nearestMagnitude_eq hfinite hq (roundHalfEven_of_contains hden hx h)
      x.magnitude_eq.symm

/-! ## Decimals -/

lemma ofMagnitude_magnitude (x : Binary64) : ofMagnitude x.isNegative x.magnitude = x := by
  have hbits : x.bits.toNat < 2 * signBit := x.bits.toNat_lt
  have hnat : x.magnitude % signBit + (if x.isNegative then signBit else 0) = x.bits.toNat := by
    rw [magnitude, isNegative, Nat.mod_mod]
    by_cases h : signBit ≤ x.bits.toNat
    · rw [if_pos (decide_eq_true h), Nat.mod_eq_sub_mod h, Nat.mod_eq_of_lt (by omega)]
      omega
    · rw [if_neg (by simpa using h), Nat.mod_eq_of_lt (by omega), Nat.add_zero]
  rw [ofMagnitude, hnat, UInt64.ofNat_toNat]

lemma exponent_le (hfinite : x.isFinite = true) : x.exponent ≤ 971 := by
  have hlt : x.magnitude < 0x7FF * binade := of_decide_eq_true hfinite
  have hfield : x.magnitude / binade < 0x7FF := (Nat.div_lt_iff_lt_mul (by decide)).mpr hlt
  rw [exponent]
  omega

end Interval

end Binary64

namespace Decimal

open Binary64

/-- The absolute value of a decimal. -/
def size (d : Decimal) : ℚ := d.coefficient * 10 ^ d.exponent

lemma size_eq_div (d : Decimal) :
    d.size = ((d.coefficient * tenTo d.exponent.toNat : Nat) : ℚ) /
      (tenTo (-d.exponent).toNat : Nat) := by
  rw [size, zpow_eq_div (by norm_num)]
  simp only [tenTo, Nat.pow_eq]
  push_cast
  rw [mul_div_assoc]

lemma size_lt (d : Decimal) : d.size < 10 ^ (d.exponent + d.coefficient.log2 + 1) := by
  have hlt : (d.coefficient : ℚ) < 10 ^ (d.coefficient.log2 + 1 : Int) := by
    calc (d.coefficient : ℚ) < 2 ^ (d.coefficient.log2 + 1 : Int) := by
          exact_mod_cast Nat.lt_log2_self
      _ ≤ 10 ^ (d.coefficient.log2 + 1 : Int) := by
          exact_mod_cast Nat.pow_le_pow_left (by norm_num) _
  calc d.size < 10 ^ (d.coefficient.log2 + 1 : Int) * 10 ^ d.exponent := by
        rw [size]
        gcongr
    _ = 10 ^ (d.exponent + d.coefficient.log2 + 1) := by
        rw [← zpow_add₀ (by norm_num)]
        congr 1
        ring

/-- All finite numbers are below `10 ^ 309`. -/
lemma two_zpow_lt : (2 : ℚ) ^ (1024 : Int) < 10 ^ (309 : Int) := by
  have hnat : 2 ^ 1024 < 10 ^ 309 := by decide +kernel
  exact_mod_cast hnat

/-- All reals that are rounded to a positive number are at least `10 ^ (-324)`. -/
lemma ten_zpow_le : (10 : ℚ) ^ (-324 : Int) ≤ 2 ^ (-1075 : Int) := by
  have hnat : 2 ^ 1075 ≤ 10 ^ 324 := by decide +kernel
  rw [zpow_neg, zpow_neg, inv_le_inv₀ (by positivity) (by positivity)]
  exact_mod_cast hnat

/-- **A decimal is read as a number** if its absolute value lies in the interval of the number
and the signs are the same. -/
theorem toBinary64_of_contains {d : Decimal} {x : Binary64} (hfinite : x.isFinite = true)
    (hx : 0 < x.magnitude) (hsign : d.negative = x.isNegative)
    (h : x.interval.Contains d.size) : d.toBinary64 = x := by
  have hsize := pos_of_contains hx h
  have hcoefficient : d.coefficient ≠ 0 := by
    intro hzero
    simp [size, hzero] at hsize
  have hlarge : ¬ 308 < d.exponent := by
    intro hlt
    have hone : (1 : ℚ) ≤ d.coefficient := by exact_mod_cast Nat.one_le_iff_ne_zero.mpr hcoefficient
    have : (10 : ℚ) ^ (309 : Int) < 10 ^ (309 : Int) :=
      calc (10 : ℚ) ^ (309 : Int) ≤ 10 ^ d.exponent := zpow_le_zpow_right₀ (by norm_num) hlt
        _ ≤ d.size := le_mul_of_one_le_left (by positivity) hone
        _ < 2 ^ (x.exponent + 53) := lt_of_contains hx h
        _ ≤ 2 ^ (1024 : Int) := by
            have := exponent_le hfinite
            exact zpow_le_zpow_right₀ (by norm_num) (by omega)
        _ < 10 ^ (309 : Int) := two_zpow_lt
    exact lt_irrefl _ this
  have hsmall : ¬ d.exponent + d.coefficient.log2 + 1 ≤ -324 := by
    intro hle
    have : (2 : ℚ) ^ (-1075 : Int) < 2 ^ (-1075 : Int) :=
      calc (2 : ℚ) ^ (-1075 : Int) ≤ 2 ^ (x.exponent - 1) := by
            have := x.le_exponent
            exact zpow_le_zpow_right₀ (by norm_num) (by omega)
        _ ≤ d.size := le_of_contains hx h
        _ < 10 ^ (d.exponent + d.coefficient.log2 + 1) := d.size_lt
        _ ≤ 10 ^ (-324 : Int) := zpow_le_zpow_right₀ (by norm_num) hle
        _ ≤ 2 ^ (-1075 : Int) := ten_zpow_le
    exact lt_irrefl _ this
  have hround : nearestMagnitude (d.coefficient * tenTo d.exponent.toNat)
      (tenTo (-d.exponent).toNat) = x.magnitude := by
    refine nearestMagnitude_of_contains (Nat.pow_pos (by norm_num)) hx hfinite ?_
    rw [← size_eq_div]
    exact h
  have hnum : d.coefficient * tenTo d.exponent.toNat ≠ 0 :=
    Nat.mul_ne_zero hcoefficient (Nat.pow_pos (by norm_num)).ne'
  rw [toBinary64, if_neg hcoefficient, if_neg hlarge, if_neg hsmall, nearest, if_neg hnum, hround,
    hsign, ofMagnitude_magnitude]

end Decimal
end Verdict
