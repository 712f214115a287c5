import Mathlib.Algebra.Order.Ring.Int
import Verdict.Proofs.Text
import Verdict.Value
/-
Numerals, read back.

A numeral is a sign, digits and maybe digits behind a point, and a reader takes it apart where one
of these ends (`Decimal.ofText?_numeral`).  Wherever a decimal has its point, what is written of it
without an exponent is read as a decimal of the same size, which has an exponent only if there are
digits behind the point (`Decimal.ofText?_write`).
-/
namespace Verdict

namespace Decimal

/-- One or more digits. -/
def Digits (cs : List Char) : Prop := cs ≠ [] ∧ ∀ c ∈ cs, c.isDigit = true

/-- No digit comes next. -/
def NoDigit (cs : List Char) : Prop := ∀ c, cs.head? = some c → c.isDigit = false

/-- The digits of a number after its point, and how they are written. -/
inductive Fraction : List Char → List Char → Prop
  | none : Fraction [] []
  | digits {digits : List Char} (h : Digits digits) : Fraction digits ('.' :: digits)

/-- A sign that may be left out where it is plus. -/
inductive Sign : Bool → List Char → Prop
  | none : Sign false []
  | plus : Sign false ['+']
  | minus : Sign true ['-']

/-! ## Reading -/

lemma noDigit_append {a b : List Char} (ha : NoDigit a) (hb : NoDigit b) : NoDigit (a ++ b) := by
  cases a with
  | nil => exact hb
  | cons c a => exact ha

lemma noDigit_dropWhile (cs : List Char) : NoDigit (cs.dropWhile Char.isDigit) := by
  intro c hc
  have h := List.head?_dropWhile_not Char.isDigit cs
  rw [hc] at h
  simpa using h

lemma noDigit_of_fraction {digits cs : List Char} (h : Fraction digits cs) : NoDigit cs := by
  intro c hc
  cases h with
  | none => cases hc
  | digits => cases hc; decide

lemma spanDigits_append {digits rest : List Char} (h : Digits digits) (hrest : NoDigit rest) :
    spanDigits (digits ++ rest) = (digits, rest) := by
  obtain ⟨htake, hdrop⟩ := Text.span_append rest h.2 hrest
  rw [spanDigits, htake, hdrop]

lemma spanDigits_split (cs : List Char) :
    cs = (spanDigits cs).1 ++ (spanDigits cs).2 ∧
      (∀ c ∈ (spanDigits cs).1, c.isDigit = true) ∧ NoDigit (spanDigits cs).2 :=
  ⟨List.takeWhile_append_dropWhile.symm, fun _ hc => List.mem_takeWhile_imp hc,
    noDigit_dropWhile cs⟩

lemma Digits.exists_cons {digits : List Char} (h : Digits digits) :
    ∃ c cs, digits = c :: cs ∧ c.isDigit = true := by
  obtain ⟨hne, hdigits⟩ := h
  obtain ⟨c, cs, rfl⟩ := List.exists_cons_of_ne_nil hne
  exact ⟨c, cs, rfl, hdigits c (by simp)⟩

lemma spanSign_append {negative : Bool} {sign cs : List Char} (h : Sign negative sign)
    (hcs : Digits cs) (rest : List Char) :
    spanSign (sign ++ (cs ++ rest)) = (negative, cs ++ rest) := by
  cases h with
  | none =>
    obtain ⟨c, cs, rfl, hc⟩ := hcs.exists_cons
    rw [List.nil_append, spanSign.eq_def]
    split
    · rename_i heq
      obtain ⟨rfl, -⟩ := List.cons.inj heq
      exact absurd hc (by decide)
    · rename_i heq
      obtain ⟨rfl, -⟩ := List.cons.inj heq
      exact absurd hc (by decide)
    · rfl
  | plus => rfl
  | minus => rfl

lemma exists_sign (cs : List Char) :
    ∃ sign, cs = sign ++ (spanSign cs).2 ∧ Sign (spanSign cs).1 sign := by
  rw [spanSign.eq_def]
  split
  · exact ⟨['-'], rfl, .minus⟩
  · exact ⟨['+'], rfl, .plus⟩
  · exact ⟨[], rfl, .none⟩

/-- A sign, digits, and maybe a point and further digits, are a decimal. -/
lemma ofText?_numeral {negative : Bool} {sign whole fraction text : List Char}
    (hsign : Sign negative sign) (hwhole : Digits whole) (hfraction : Fraction fraction text) :
    ofText? (sign ++ (whole ++ text)) = some (ofDigits negative whole fraction 0) := by
  have hempty : whole.isEmpty = false := by simpa using hwhole.1
  have hspan : spanFraction text = (fraction, []) := by
    cases hfraction with
    | none => rfl
    | digits h =>
      have hnil : NoDigit [] := by simp [NoDigit]
      simpa [spanFraction] using spanDigits_append h hnil
  simp only [ofText?, spanSign_append hsign hwhole,
    spanDigits_append hwhole (noDigit_of_fraction hfraction), hspan, hempty, Bool.false_and,
    Bool.false_eq_true, if_false]
  rfl

/-! ## Writing -/

section Digits

variable {cs : List Char}

lemma digitsToNat_eq (cs : List Char) : digitsToNat cs = Nat.ofDigitChars 10 cs 0 :=
  Nat.ofDigitChars_eq_foldl.symm

lemma digits_toDigits (n : Nat) : Digits (Nat.toDigits 10 n) :=
  ⟨Nat.toDigits_ne_nil, fun _ hc => Nat.isDigit_of_mem_toDigits (by decide) (by decide) hc⟩

lemma isDigit_of_mem_zeros {n : Nat} : ∀ c ∈ List.replicate n '0', c.isDigit = true := by
  intro c hc
  rw [List.eq_of_mem_replicate hc]
  decide

/-- The digits of the number with `n` zeros behind it. -/
lemma digits_append_zeros (h : Digits cs) (n : Nat) :
    Digits (cs ++ List.replicate n '0') ∧
      digitsToNat (cs ++ List.replicate n '0') = digitsToNat cs * 10 ^ n := by
  refine ⟨⟨by simp [h.1], List.forall_mem_append.mpr ⟨h.2, isDigit_of_mem_zeros⟩⟩, ?_⟩
  rw [digitsToNat_eq, digitsToNat_eq, Nat.ofDigitChars_append, Nat.ofDigitChars_replicate_zero,
    Nat.mul_comm]

/-- Zeros in front of a number do not count. -/
lemma zeros_append_digits (h : Digits cs) (n : Nat) :
    Digits (List.replicate n '0' ++ cs) ∧
      digitsToNat (List.replicate n '0' ++ cs) = digitsToNat cs := by
  refine ⟨⟨by simp [h.1], List.forall_mem_append.mpr ⟨isDigit_of_mem_zeros, h.2⟩⟩, ?_⟩
  rw [digitsToNat_eq, digitsToNat_eq, Nat.ofDigitChars_append, Nat.ofDigitChars_replicate_zero,
    Nat.mul_zero]

lemma digits_take (h : Digits cs) {n : Nat} (hn : 0 < n) : Digits (cs.take n) := by
  refine ⟨?_, fun c hc => h.2 c (List.mem_of_mem_take hc)⟩
  rw [Ne, List.take_eq_nil_iff, not_or]
  exact ⟨hn.ne', h.1⟩

lemma digits_drop (h : Digits cs) {n : Nat} (hn : n < cs.length) : Digits (cs.drop n) := by
  refine ⟨?_, fun c hc => h.2 c (List.mem_of_mem_drop hc)⟩
  rw [Ne, List.drop_eq_nil_iff]
  omega

end Digits

/-- Digits with a point in its place are a numeral. -/
lemma exists_numeral_positional {digits : String} (hdigits : Digits digits.toList)
    (exponent : Int) :
    ∃ whole fraction text, (positional "" digits exponent).toList = whole ++ text ∧
      Digits whole ∧ Fraction fraction text ∧
      digitsToNat (whole ++ fraction) = digitsToNat digits.toList * 10 ^ exponent.toNat ∧
      -(fraction.length : Int) = min exponent 0 := by
  have hlength : digits.length = digits.toList.length := digits.length_toList.symm
  rw [positional]
  split_ifs with hwhole hpoint
  · obtain ⟨hzeros, hvalue⟩ := digits_append_zeros hdigits exponent.toNat
    refine ⟨_, [], [], ?_, hzeros, .none, ?_, ?_⟩
    · simp [zeros]
    · rw [List.append_nil, hvalue]
    · rw [List.length_nil]
      omega
  · -- the point stands among the digits
    have hnat : exponent.toNat = 0 := by omega
    have htake : 0 < (digits.length + exponent).toNat := by omega
    have hdrop : (digits.length + exponent).toNat < digits.toList.length := by omega
    refine ⟨_, _, _, ?_, digits_take hdigits htake, .digits (digits_drop hdigits hdrop), ?_, ?_⟩
    · simp
    · rw [List.take_append_drop, hnat, Nat.pow_zero, Nat.mul_one]
    · rw [List.length_drop]
      omega
  · -- the point stands in front of the digits, and zeros between them
    have hnat : exponent.toNat = 0 := by omega
    obtain ⟨hzeros, hvalue⟩ := zeros_append_digits hdigits (-(digits.length + exponent)).toNat
    obtain ⟨-, hvalue'⟩ := zeros_append_digits hzeros 1
    refine ⟨['0'], _, _, ?_, digits_toDigits 0, .digits hzeros, ?_, ?_⟩
    · simp [zeros]
    · rw [hnat, Nat.pow_zero, Nat.mul_one, ← hvalue]
      exact hvalue'
    · rw [List.length_append, List.length_replicate]
      omega

/-- **A decimal that is written without exponent** is read as a decimal of the same size. -/
theorem ofText?_write (d : Decimal) :
    ofText? (d.write Value.numberFormat).toList =
      some ⟨d.negative, d.coefficient * 10 ^ d.exponent.toNat, min d.exponent 0⟩ := by
  have hdigits : (toString d.coefficient).toList = Nat.toDigits 10 d.coefficient := by
    rw [Nat.toString_eq_repr, Nat.toList_repr]
  obtain ⟨whole, fraction, text, htext, hwhole, hfraction, hcoefficient, hexponent⟩ :=
    exists_numeral_positional (hdigits ▸ digits_toDigits d.coefficient) d.exponent
  have hwrite : (d.write Value.numberFormat).toList =
      (if d.negative then ['-'] else []) ++ (whole ++ text) := by
    rw [← htext]
    cases hnegative : d.negative <;> simp [write, Value.numberFormat, hnegative]
  have hsign : Sign d.negative (if d.negative then ['-'] else []) := by
    cases d.negative with
    | true => exact .minus
    | false => exact .none
  rw [hdigits, digitsToNat_eq (Nat.toDigits 10 _), Nat.ofDigitChars_ten_toDigits] at hcoefficient
  rw [hwrite, ofText?_numeral hsign hwhole hfraction, ofDigits, hcoefficient, Int.zero_sub,
    hexponent]

end Decimal

end Verdict
