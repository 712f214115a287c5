import Mathlib.Algebra.GroupWithZero.Nat
import Mathlib.Data.List.Basic
import Verdict.Archive.Bytes
/-
Numbers and texts, read back.

A reader stops where the writer stopped: whatever bytes follow the ones that were written,
they are left as the rest.  So the statements of this file all have the form
"reading what was written, in front of `rest`, gives the value and `rest`", and the
statement about a value with several parts follows by reading one part after the other.
-/
namespace Verdict.Archive

/-! ## Fixed widths -/

@[simp] lemma length_littleEndian (n value : Nat) : (littleEndian n value).length = n := by
  induction n generalizing value with
  | zero => rfl
  | succ n ih => rw [littleEndian, List.length_cons, ih]

/-- A number that fits into `n` bytes is what its bytes write. -/
lemma ofLittleEndian_littleEndian {n value : Nat} (h : value < 256 ^ n) :
    ofLittleEndian (littleEndian n value) = value := by
  induction n generalizing value with
  | zero =>
    have hzero : value = 0 := by simpa using h
    rw [hzero]
    rfl
  | succ n ih =>
    have hhigh : value / 256 < 256 ^ n := by
      rw [Nat.pow_succ] at h
      exact Nat.div_lt_of_lt_mul (by rwa [Nat.mul_comm])
    have hlow : (UInt8.ofNat (value % 256)).toNat = value % 256 :=
      UInt8.toNat_ofNat_of_lt' (Nat.mod_lt _ (by decide))
    have hrest := ih hhigh
    rw [ofLittleEndian] at hrest
    rw [littleEndian, ofLittleEndian, List.foldr_cons, hlow, hrest]
    exact Nat.mod_add_div value 256

lemma ofLittleEndian_lt (bytes : List UInt8) : ofLittleEndian bytes < 256 ^ bytes.length := by
  induction bytes with
  | nil => decide
  | cons byte bytes ih =>
    have hbyte := byte.toNat_lt
    rw [ofLittleEndian] at ih
    rw [ofLittleEndian, List.foldr_cons, List.length_cons, Nat.pow_succ]
    omega

/-- Bytes are those of the number that they write. -/
lemma littleEndian_ofLittleEndian (bytes : List UInt8) :
    littleEndian bytes.length (ofLittleEndian bytes) = bytes := by
  induction bytes with
  | nil => rfl
  | cons byte bytes ih =>
    have hbyte := byte.toNat_lt
    have hvalue : ofLittleEndian (byte :: bytes) = byte.toNat + 256 * ofLittleEndian bytes := rfl
    have hlow : (byte.toNat + 256 * ofLittleEndian bytes) % 256 = byte.toNat := by omega
    have hhigh : (byte.toNat + 256 * ofLittleEndian bytes) / 256 = ofLittleEndian bytes := by omega
    rw [List.length_cons, littleEndian, hvalue, hlow, hhigh, ih, UInt8.ofNat_toNat]

lemma takeOnto_append (taken front rest : List UInt8) :
    takeOnto taken front.length (front ++ rest) = .ok (taken.reverse ++ front, rest) := by
  induction front generalizing taken with
  | nil => simp [takeOnto]
  | cons byte front ih => simp [takeOnto, ih]

/-- As many bytes are taken as were put in front. -/
lemma takeBytes_append (front rest : List UInt8) :
    takeBytes front.length (front ++ rest) = .ok (front, rest) :=
  takeOnto_append [] front rest

/-! ## Integers -/

lemma writeInteger_ne_nil (n : UInt64) : writeInteger n ≠ [] := by
  rw [writeInteger]
  split_ifs <;> simp [littleEndian]

/-- What follows the tag of a longer integer. -/
lemma readInteger_tag {width size : Nat} {tag : UInt8} (htag : ¬ tag ≤ 250)
    (hsize : integerSize? width tag = some size) {value : Nat} (hvalue : value < 256 ^ size)
    (rest : List UInt8) :
    readInteger width (tag :: littleEndian size value ++ rest) = .ok (value, rest) := by
  have htake := takeBytes_append (littleEndian size value) rest
  rw [length_littleEndian] at htake
  rw [List.cons_append, readInteger, if_neg htag, hsize]
  simp only [htake, Except.map, ofLittleEndian_littleEndian hvalue]

/-- An integer that the reader has room for is read back. -/
theorem readInteger_writeInteger {width : Nat} {n : UInt64}
    (hroom : 8 ≤ width ∨ (4 ≤ width ∧ n.toNat < 2 ^ 32)) (rest : List UInt8) :
    readInteger width (writeInteger n ++ rest) = .ok (n.toNat, rest) := by
  have hbound := n.toNat_lt
  rw [writeInteger]
  split_ifs with h1 h2 h3
  · -- a single byte, its own tag
    have hbyte : (UInt8.ofNat (n.toNat % 256)).toNat = n.toNat := by
      have hsmall : n.toNat < 256 := by omega
      rw [Nat.mod_eq_of_lt hsmall, UInt8.toNat_ofNat_of_lt' hsmall]
    have htag : UInt8.ofNat (n.toNat % 256) ≤ 250 := by
      rw [UInt8.le_iff_toNat_le, hbyte]
      exact h1
    simp only [littleEndian, List.cons_append, List.nil_append, readInteger, if_pos htag, hbyte]
  · have hsize : integerSize? width 251 = some 2 := by
      simp [integerSize?]
      omega
    exact readInteger_tag (by decide) hsize h2 rest
  · have hsize : integerSize? width 252 = some 4 := by
      simp [integerSize?, List.lookup_cons]
      omega
    exact readInteger_tag (by decide) hsize h3 rest
  · -- the widest form is only written when the reader has room for it
    have hwidth : 8 ≤ width := by omega
    have hsize : integerSize? width 253 = some 8 := by
      simp [integerSize?, List.lookup_cons, hwidth]
    exact readInteger_tag (by decide) hsize hbound rest

/-! ## Texts -/

theorem readText_writeText {text : String} (h : (utf8 text).length < 2 ^ 64) (rest : List UInt8) :
    readText (writeText text ++ rest) = .ok (text, rest) := by
  have hlength : (UInt64.ofNat (utf8 text).length).toNat = (utf8 text).length :=
    UInt64.toNat_ofNat_of_lt' h
  have hsize := readInteger_writeInteger (n := .ofNat (utf8 text).length) (Or.inl (Nat.le_refl 8))
    (utf8 text ++ rest)
  rw [hlength] at hsize
  rw [writeText, List.append_assoc, readText, hsize]
  simp only [takeBytes_append, ofUtf8?_utf8]

end Verdict.Archive
