import Verdict.Proofs.Number.Rounding
/-
The order of floating-point numbers.

Numbers are compared by their encodings alone.  The standard library has numbers of its own, which
it decodes into a sign, a significand and an exponent and compares by these.  Both come to the same
order (`Binary64.compare_unpacked`): numbers with a larger exponent have the larger magnitude,
because the significand of a number above the smallest exponent never has room to spare.

Equality needs no order.  Two encodings are at one place of the order if they are the same, or if
they are the two zeros (`Binary64.equals_eq`).
-/
namespace Verdict.Binary64

open Float.Model (Format UnpackedFloat)
open Float.Model.UnpackedFloat (Sign unpack unpackExponent unpackMantissa unpackSign)

/-! ## The encoding, as the standard library decodes it -/

section Unpacked

variable (x : Binary64)

lemma toNat_unpackExponent :
    (@unpackExponent .binary64 x.bits.toBitVec).toNat = x.magnitude / binade := by
  have hbits := x.bits.toNat_lt
  simp only [unpackExponent, magnitude, signBit, binade, BitVec.toNat_cast,
    BitVec.extractLsb_toNat, UInt64.toNat_toBitVec, Nat.shiftRight_eq_div_pow]
  omega

lemma toNat_unpackMantissa :
    (@unpackMantissa .binary64 x.bits.toBitVec).toNat = x.magnitude % binade := by
  simp only [unpackMantissa, magnitude, signBit, binade, BitVec.toNat_cast,
    BitVec.extractLsb_toNat, UInt64.toNat_toBitVec, Nat.shiftRight_zero]
  omega

/-- The sign of a number, as the standard library has it. -/
def sign : Sign := if x.isNegative then .negative else .positive

lemma ofBitVec_unpackSign : Sign.ofBitVec (@unpackSign .binary64 x.bits.toBitVec) = x.sign := by
  have hbits := x.bits.toNat_lt
  have hbit : (@unpackSign .binary64 x.bits.toBitVec).toNat = x.bits.toNat / signBit := by
    change (x.bits.toBitVec.extractLsb 63 63).toNat = _
    rw [BitVec.extractLsb_toNat, UInt64.toNat_toBitVec, Nat.shiftRight_eq_div_pow, signBit]
    omega
  have hzero : @unpackSign .binary64 x.bits.toBitVec = 0#1 ↔ ¬ x.isNegative = true := by
    rw [← BitVec.toNat_inj, hbit, isNegative, decide_eq_true_eq, Nat.not_le]
    exact Nat.div_eq_zero_iff_lt (by decide)
  simp only [Sign.ofBitVec, sign, hzero, ite_not]

lemma unpackExponent_eq_iff (n : BitVec 11) :
    @unpackExponent .binary64 x.bits.toBitVec = n ↔ x.magnitude / binade = n.toNat := by
  rw [← BitVec.toNat_inj, toNat_unpackExponent]

lemma unpackMantissa_eq_zero_iff :
    @unpackMantissa .binary64 x.bits.toBitVec = 0#52 ↔ x.magnitude % binade = 0 := by
  rw [← BitVec.toNat_inj, toNat_unpackMantissa]
  rfl

/-- The number that the standard library reads of the encoding. -/
def unpacked : UnpackedFloat := unpack .binary64 x.bits.toBitVec

lemma unpacked_of_isNaN (h : x.isNaN = true) : x.unpacked = .notANumber := by
  have hlt : x.magnitude < 2048 * binade := Nat.mod_lt _ (by decide)
  have hgt : 2047 * binade < x.magnitude := of_decide_eq_true h
  have hexponent := (x.unpackExponent_eq_iff (-1#11)).mpr (Nat.div_eq_of_lt_le hgt.le hlt)
  have hmantissa : ¬ @unpackMantissa .binary64 x.bits.toBitVec = 0#52 := by
    rw [unpackMantissa_eq_zero_iff]
    unfold binade at *
    omega
  exact (if_pos hexponent).trans (if_neg hmantissa)

lemma unpacked_of_infinite (h : x.magnitude = infinityMagnitude) :
    x.unpacked = .infinity x.sign := by
  have hexponent := (x.unpackExponent_eq_iff (-1#11)).mpr (by rw [h]; rfl)
  have hmantissa := x.unpackMantissa_eq_zero_iff.mpr (by rw [h]; rfl)
  rw [← ofBitVec_unpackSign]
  exact (if_pos hexponent).trans (if_pos hmantissa)

lemma unpacked_of_zero (h : x.magnitude = 0) : x.unpacked = .zero x.sign := by
  have hexponent := (x.unpackExponent_eq_iff 0#11).mpr (by rw [h]; rfl)
  have hmantissa := x.unpackMantissa_eq_zero_iff.mpr (by rw [h]; rfl)
  have hfinite : ¬ @unpackExponent .binary64 x.bits.toBitVec = -1#11 := by
    rw [hexponent]
    decide
  rw [← ofBitVec_unpackSign]
  exact (if_neg hfinite).trans ((if_pos hexponent).trans (dif_pos hmantissa))

lemma unpacked_of_finite (h : x.magnitude < infinityMagnitude) (hpos : 0 < x.magnitude) :
    x.unpacked = .finite x.sign x.significand x.exponent (x.significand_pos hpos) := by
  have hfinite : ¬ @unpackExponent .binary64 x.bits.toBitVec = -1#11 := by
    rw [unpackExponent_eq_iff]
    exact ((Nat.div_lt_iff_lt_mul (by decide)).mpr h).ne
  refine (if_neg hfinite).trans ?_
  by_cases hzero : x.magnitude / binade = 0
  · -- below the smallest power of two with a significand in full length
    have hlt : x.magnitude < binade := (Nat.div_eq_zero_iff_lt (by decide)).mp hzero
    have hexponent := (x.unpackExponent_eq_iff 0#11).mpr hzero
    have hmantissa : ¬ @unpackMantissa .binary64 x.bits.toBitVec = 0#52 := by
      rw [unpackMantissa_eq_zero_iff, Nat.mod_eq_of_lt hlt]
      exact hpos.ne'
    refine (if_pos hexponent).trans ((dif_neg hmantissa).trans ?_)
    rw [UnpackedFloat.finite.injEq, toNat_unpackMantissa, toNat_unpackExponent, significand,
      exponent, if_pos hzero, hzero]
    exact ⟨x.ofBitVec_unpackSign, Nat.mod_eq_of_lt hlt, rfl⟩
  · have hexponent := (x.unpackExponent_eq_iff 0#11).not.mpr hzero
    refine (if_neg hexponent).trans ?_
    rw [UnpackedFloat.finite.injEq, toNat_unpackExponent, significand, exponent, if_neg hzero]
    refine ⟨x.ofBitVec_unpackSign, ?_, ?_⟩
    · -- the leading bit, which the encoding leaves out
      have hlt : x.magnitude % binade < 2 ^ 52 := Nat.mod_lt _ (by decide)
      rw [BitVec.toNat_append, toNat_unpackMantissa, ← Nat.shiftLeft_add_eq_or_of_lt hlt,
        Nat.add_comm]
      rfl
    · change (_ - (1023 + 52) : Int) = _
      generalize x.magnitude / binade = field at hzero
      omega

lemma unpacked_cases :
    x.isNaN = true ∧ x.unpacked = .notANumber ∨
      x.isNaN = false ∧
        (x.magnitude = infinityMagnitude ∧ x.unpacked = .infinity x.sign ∨
          x.magnitude = 0 ∧ x.unpacked = .zero x.sign ∨
          x.magnitude < infinityMagnitude ∧ ∃ h : 0 < x.magnitude,
            x.unpacked = .finite x.sign x.significand x.exponent (x.significand_pos h)) := by
  cases hnan : x.isNaN with
  | true => exact .inl ⟨rfl, x.unpacked_of_isNaN hnan⟩
  | false =>
    refine .inr ⟨rfl, ?_⟩
    have hle : x.magnitude ≤ infinityMagnitude := Nat.not_lt.mp (of_decide_eq_false hnan)
    rcases hle.eq_or_lt with hinfinite | hlt
    · exact .inl ⟨hinfinite, x.unpacked_of_infinite hinfinite⟩
    rcases Nat.eq_zero_or_pos x.magnitude with hzero | hpos
    · exact .inr (.inl ⟨hzero, x.unpacked_of_zero hzero⟩)
    · exact .inr (.inr ⟨hlt, hpos, x.unpacked_of_finite hlt hpos⟩)

end Unpacked

/-! ## Comparing encodings -/

section Compare

variable {x y : Binary64}

lemma magnitude_lt_of_exponent_lt (h : x.exponent < y.exponent) : x.magnitude < y.magnitude := by
  have hx := x.significand_lt
  have hle := x.le_exponent
  have hy := y.binade_le_significand (by omega)
  have hmul := Nat.mul_le_mul_right binade
    (show (x.exponent + 1074).toNat + 1 ≤ (y.exponent + 1074).toNat by omega)
  rw [Nat.add_mul] at hmul
  rw [x.magnitude_eq, y.magnitude_eq]
  omega

/-- Magnitudes are ordered by the exponent first and then by the significand. -/
lemma compare_magnitude (x y : Binary64) :
    (compare x.exponent y.exponent).then (compare x.significand y.significand) =
      compare x.magnitude y.magnitude := by
  rcases lt_trichotomy x.exponent y.exponent with hlt | heq | hgt
  · rw [compare_lt_iff_lt.mpr hlt, compare_lt_iff_lt.mpr (magnitude_lt_of_exponent_lt hlt)]
    rfl
  · rw [heq, compare_eq_iff_eq.mpr rfl, x.magnitude_eq, y.magnitude_eq, heq,
      ← cmp_eq_compare, ← cmp_eq_compare, cmp_add_left]
    rfl
  · rw [compare_gt_iff_gt.mpr hgt, compare_gt_iff_gt.mpr (magnitude_lt_of_exponent_lt hgt)]
    rfl

lemma lt_eq_compare_iff {a b : Int} : Ordering.lt = compare a b ↔ a < b := by
  rw [eq_comm, compare_lt_iff_lt]

lemma gt_eq_compare_iff {a b : Int} : Ordering.gt = compare a b ↔ b < a := by
  rw [eq_comm, compare_gt_iff_gt]

lemma eq_eq_compare_iff {a b : Int} : Ordering.eq = compare a b ↔ a = b := by
  rw [eq_comm, compare_eq_iff_eq]

lemma sign_and_key (x : Binary64) :
    x.sign = .negative ∧ x.key = -x.magnitude ∨ x.sign = .positive ∧ x.key = x.magnitude := by
  rw [sign, key]
  cases x.isNegative
  · exact .inr ⟨rfl, rfl⟩
  · exact .inl ⟨rfl, rfl⟩

lemma compare_infinities (hx : x.magnitude = infinityMagnitude)
    (hy : y.magnitude = infinityMagnitude) :
    UnpackedFloat.compare (.infinity x.sign) (.infinity y.sign) = some (compare x.key y.key) := by
  rw [sign, sign, key, key, hx, hy]
  cases x.isNegative <;> cases y.isNegative <;> rfl

lemma compare_finite (hx : 0 < x.magnitude) (hy : 0 < y.magnitude) :
    UnpackedFloat.compare (.finite x.sign x.significand x.exponent (x.significand_pos hx))
        (.finite y.sign y.significand y.exponent (y.significand_pos hy)) =
      some (compare x.key y.key) := by
  have hcast : compare (x.magnitude : Int) y.magnitude = compare x.magnitude y.magnitude := by
    rw [← cmp_eq_compare, ← cmp_eq_compare]
    simp [cmp, cmpUsing]
  have hneg : compare (-(x.magnitude : Int)) (-y.magnitude) =
      (compare x.magnitude y.magnitude).swap := by
    rw [← cmp_eq_compare, ← cmp_eq_compare, cmp_swap]
    simp [cmp, cmpUsing]
  rcases x.sign_and_key with ⟨hsx, hkx⟩ | ⟨hsx, hkx⟩ <;>
    rcases y.sign_and_key with ⟨hsy, hky⟩ | ⟨hsy, hky⟩ <;> rw [hsx, hsy, hkx, hky]
  case inl.inl =>
    rw [hneg, ← compare_magnitude]
    rfl
  case inl.inr => exact congrArg some (lt_eq_compare_iff.mpr (by omega))
  case inr.inl => exact congrArg some (gt_eq_compare_iff.mpr (by omega))
  case inr.inr =>
    rw [hcast, ← compare_magnitude]
    rfl

/-- Numbers are compared as the numbers of the standard library are. -/
theorem compare_unpacked (x y : Binary64) :
    x.unpacked.compare y.unpacked = x.partialCompare y := by
  rcases x.unpacked_cases with ⟨hx, hux⟩ | ⟨hx, hux⟩
  · rw [hux, partialCompare, hx]
    rfl
  rcases y.unpacked_cases with ⟨hy, huy⟩ | ⟨hy, huy⟩
  · rw [huy, partialCompare, hy, Bool.or_true, if_pos rfl]
    cases x.unpacked <;> rfl
  rw [partialCompare, hx, hy, Bool.or_self, if_neg Bool.false_ne_true]
  have hpos : 0 < infinityMagnitude := by decide
  rcases hux with ⟨hxm, hux⟩ | ⟨hxm, hux⟩ | ⟨hxm, hxp, hux⟩ <;>
    rcases huy with ⟨hym, huy⟩ | ⟨hym, huy⟩ | ⟨hym, hyp, huy⟩ <;> rw [hux, huy]
  case inr.inr.inl.inl => exact compare_infinities hxm hym
  case inr.inr.inr.inr.inr.inr => exact compare_finite hxp hyp
  -- of any other two, one is larger by its kind and by its sign, or both are zero
  all_goals
    rcases x.sign_and_key with ⟨hsx, hkx⟩ | ⟨hsx, hkx⟩ <;>
      rcases y.sign_and_key with ⟨hsy, hky⟩ | ⟨hsy, hky⟩ <;> rw [hsx, hsy, hkx, hky] <;>
      first
        | exact congrArg some (lt_eq_compare_iff.mpr (by omega))
        | exact congrArg some (gt_eq_compare_iff.mpr (by omega))
        | exact congrArg some (eq_eq_compare_iff.mpr (by omega))

/-- Two encodings at the same place of the order are the same, or both are zero. -/
lemma key_eq_key_iff : x.key = y.key ↔ x = y ∨ x.magnitude = 0 ∧ y.magnitude = 0 := by
  constructor
  · intro h
    rw [key, key] at h
    by_cases hsign : x.isNegative = y.isNegative
    · have hmagnitude : x.magnitude = y.magnitude := by
        rw [hsign] at h
        split_ifs at h <;> omega
      refine .inl ?_
      rw [← x.ofMagnitude_magnitude, hsign, hmagnitude, y.ofMagnitude_magnitude]
    · refine .inr ?_
      split_ifs at h with hx hy hy
      · exact absurd (hx.trans hy.symm) hsign
      · omega
      · omega
      · have hx' := Bool.eq_false_of_not_eq_true hx
        exact absurd (hx'.trans (Bool.eq_false_of_not_eq_true hy).symm) hsign
  · rintro (rfl | ⟨hx, hy⟩)
    · rfl
    · simp [key, hx, hy]

/-- Numbers are equal if they are at the same place of the order. -/
theorem equals_eq (x y : Binary64) : x.equals y = (x.partialCompare y == some .eq) := by
  have hkey : (compare x.key y.key == .eq) =
      (x == y || x.magnitude == 0 && y.magnitude == 0) := by
    rw [Bool.eq_iff_iff, beq_iff_eq, compare_eq_iff_eq, key_eq_key_iff]
    simp
  rw [equals, partialCompare]
  cases x.isNaN with
  | true => rfl
  | false =>
    cases y.isNaN with
    | true => rfl
    | false => exact hkey.symm

end Compare

end Verdict.Binary64
