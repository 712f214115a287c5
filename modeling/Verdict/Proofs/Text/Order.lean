import Mathlib.Data.String.Basic
import Verdict.Archive.Bytes
/-
The order of texts.

Texts are ordered by the first character in which they differ, and a text comes before those that
go on behind it (`Text.Precedes`).  Their UTF-8 bytes are in the same order
(`Text.precedes_utf8_iff`): of two characters the one with the smaller code point has the smaller
byte in the first place where their bytes differ, and no character's bytes begin another's.
-/
namespace Verdict.Text

open Archive (utf8)

/-- `s` comes to an end where `t` goes on, or has the smaller element in the first place where they
differ. -/
def Precedes {α : Type} [LT α] (s t : List α) : Prop :=
  (∃ c rest, t = s ++ c :: rest) ∨
    ∃ front c d rest rest', s = front ++ c :: rest ∧ t = front ++ d :: rest' ∧ c < d

lemma precedes_iff_lt {α : Type} [LT α] {s t : List α} : Precedes s t ↔ s < t := by
  constructor
  · rintro (⟨c, rest, rfl⟩ | ⟨front, c, d, rest, rest', rfl, rfl, h⟩)
    · induction s with
      | nil => exact .nil
      | cons a s ih => exact .cons ih
    · induction front with
      | nil => exact .rel h
      | cons a front ih => exact .cons ih
  · intro h
    induction h with
    | nil => exact .inl ⟨_, _, rfl⟩
    | rel h => exact .inr ⟨[], _, _, _, _, rfl, rfl, h⟩
    | @cons a _ _ _ ih =>
      rcases ih with ⟨c, rest, rfl⟩ | ⟨front, c, d, rest, rest', rfl, rfl, h⟩
      · exact .inl ⟨c, rest, rfl⟩
      · exact .inr ⟨a :: front, c, d, rest, rest', rfl, rfl, h⟩

/-! ## UTF-8 -/

lemma utf8_eq (s : String) : utf8 s = s.toList.flatMap String.utf8EncodeChar := by
  rw [utf8, ← String.utf8Encode_toList, List.utf8Encode, List.toList_data_toByteArray]

lemma ofNat_lt_ofNat {m n : Nat} (hm : m < 256) (hn : n < 256) :
    UInt8.ofNat m < UInt8.ofNat n ↔ m < n := by
  rw [UInt8.lt_iff_toNat_lt, UInt8.toNat_ofNat', UInt8.toNat_ofNat', Nat.mod_eq_of_lt hm,
    Nat.mod_eq_of_lt hn]

lemma ofNat_eq_ofNat {m n : Nat} (hm : m < 256) (hn : n < 256) :
    UInt8.ofNat m = UInt8.ofNat n ↔ m = n := by
  rw [← UInt8.toNat_inj, UInt8.toNat_ofNat', UInt8.toNat_ofNat', Nat.mod_eq_of_lt hm,
    Nat.mod_eq_of_lt hn]

/-- Numbers are ordered by the leading digits first, and then by the last one. -/
lemma div_lt_or_mod_lt {m n : Nat} (h : m < n) :
    m / 64 < n / 64 ∨ m / 64 = n / 64 ∧ m % 64 < n % 64 := by
  omega

lemma utf8EncodeChar_append_lt {c d : Char} (h : c < d) (bytes bytes' : List UInt8) :
    String.utf8EncodeChar c ++ bytes < String.utf8EncodeChar d ++ bytes' := by
  have hval : c.val.toNat < d.val.toNat := h
  have hmax : d.val.toNat < 0x110000 := by
    have hvalid : d.val.toNat < 0xd800 ∨ 0xdfff < d.val.toNat ∧ d.val.toNat < 0x110000 := d.valid
    omega
  simp only [String.utf8EncodeChar]
  generalize c.val.toNat = m, d.val.toNat = n at hval hmax
  have h1 := div_lt_or_mod_lt hval
  have h2 := @div_lt_or_mod_lt (m / 64) (n / 64)
  have h3 := @div_lt_or_mod_lt (m / 64 / 64) (n / 64 / 64)
  have hdiv (k : Nat) : k / 4096 = k / 64 / 64 ∧ k / 262144 = k / 64 / 64 / 64 := by omega
  split_ifs <;>
    simp (disch := omega) only [List.cons_append, List.nil_append, List.cons_lt_cons_iff,
      ofNat_lt_ofNat, ofNat_eq_ofNat, hdiv] <;>
    omega

lemma flatMap_utf8EncodeChar_lt {s t : List Char} (h : s < t) :
    s.flatMap String.utf8EncodeChar < t.flatMap String.utf8EncodeChar := by
  induction h with
  | @nil d rest =>
    cases hbytes : String.utf8EncodeChar d with
    | nil => exact absurd hbytes String.utf8EncodeChar_ne_nil
    | cons byte bytes =>
      rw [List.flatMap_cons, hbytes]
      exact .nil
  | rel h =>
    rw [List.flatMap_cons, List.flatMap_cons]
    exact utf8EncodeChar_append_lt h _ _
  | cons h ih =>
    rw [List.flatMap_cons, List.flatMap_cons]
    exact List.append_left_lt ih

/-- The bytes of texts are ordered as their characters. -/
theorem precedes_utf8_iff {s t : String} :
    Precedes (utf8 s) (utf8 t) ↔ Precedes s.toList t.toList := by
  have hmono {s t : String} (h : s < t) : utf8 s < utf8 t := by
    rw [utf8_eq, utf8_eq]
    exact flatMap_utf8EncodeChar_lt (String.lt_iff.mp h)
  rw [precedes_iff_lt, precedes_iff_lt, ← String.lt_iff]
  refine ⟨fun h => ?_, hmono⟩
  rcases lt_trichotomy s t with hlt | rfl | hgt
  · exact hlt
  · exact absurd h (List.lt_irrefl _)
  · exact absurd h (List.lt_asymm (hmono hgt))

/-- Texts are compared by the order of their characters. -/
theorem compare_eq_lt_iff {s t : String} : compare s t = .lt ↔ Precedes s.toList t.toList := by
  rw [compare_lt_iff_lt, precedes_iff_lt, String.lt_iff]

end Verdict.Text
