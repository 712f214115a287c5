import Mathlib.Data.List.DropRight
import Verdict.Text.Blank
/-
Blanks, word characters and trimmed text.

A text is its trimmed part between two gaps (`exists_gaps`), and there is only one way to
see it so (`trim_of_gaps`); whatever is known of `trim` follows from these two.
-/
namespace Verdict.Text

/-- Every character is a blank. -/
def Blank (cs : List Char) : Prop := ∀ c ∈ cs, isBlank c = true

instance (cs : List Char) : Decidable (Blank cs) :=
  decidable_of_iff (cs.all isBlank = true) List.all_eq_true

@[simp] lemma blank_nil : Blank [] := by simp [Blank]

lemma Blank.append {a b : List Char} (ha : Blank a) (hb : Blank b) : Blank (a ++ b) := by
  intro c hc
  rcases List.mem_append.mp hc with hc | hc
  · exact ha c hc
  · exact hb c hc

/-- No blank stands at either end. -/
structure Trimmed (cs : List Char) : Prop where
  head : ∀ c, cs.head? = some c → isBlank c = false
  last : ∀ c, cs.getLast? = some c → isBlank c = false

lemma isWordChar_eq_false_of_isBlank {c : Char} (h : isBlank c = true) : isWordChar c = false := by
  have hrange : c.toNat < 48 ∨ 122 < c.toNat := by
    simp only [isBlank, blankRanges, List.any_cons, List.any_nil, Bool.or_false, Bool.or_eq_true,
      Bool.and_eq_true, decide_eq_true_eq] at h
    omega
  by_contra hword
  rw [Bool.not_eq_false] at hword
  change ((decide (c.val ≥ 'A'.val ∧ c.val ≤ 'Z'.val) ||
    decide (c.val ≥ 'a'.val) && decide (c.val ≤ 'z'.val)) ||
    decide (c.val ≥ '0'.val) && decide (c.val ≤ '9'.val) || c == '_') = true at hword
  simp only [Bool.or_eq_true, Bool.and_eq_true, decide_eq_true_eq, beq_iff_eq, ge_iff_le,
    UInt32.le_iff_toNat_le] at hword
  change (((65 ≤ c.toNat ∧ c.toNat ≤ 90) ∨ (97 ≤ c.toNat ∧ c.toNat ≤ 122)) ∨
    (48 ≤ c.toNat ∧ c.toNat ≤ 57)) ∨ c = '_' at hword
  rcases hword with ((hword | hword) | hword) | rfl
  · omega
  · omega
  · omega
  · exact absurd hrange (by decide)

lemma isBlank_eq_false_of_isWordChar {c : Char} (h : isWordChar c = true) : isBlank c = false := by
  refine Bool.eq_false_iff.mpr fun hblank => ?_
  simp [isWordChar_eq_false_of_isBlank hblank] at h

/-- A run of characters ends in front of a character of another kind. -/
lemma span_append {p : Char → Bool} {front : List Char} (rest : List Char)
    (hfront : ∀ c ∈ front, p c = true) (hrest : ∀ c, rest.head? = some c → p c = false) :
    (front ++ rest).takeWhile p = front ∧ (front ++ rest).dropWhile p = rest := by
  rw [List.takeWhile_append_of_pos hfront, List.dropWhile_append_of_pos hfront]
  cases rest with
  | nil => simp
  | cons c rest => simp [hrest c rfl]

/-! ## The characters at the ends of a text -/

section TrimBoth

variable {p : Char → Bool} {cs : List Char}

lemma trimBoth_eq (p : Char → Bool) (cs : List Char) :
    trimBoth p cs = (cs.dropWhile p).rdropWhile p := rfl

lemma trimBoth_sublist (p : Char → Bool) (cs : List Char) : (trimBoth p cs).Sublist cs :=
  (List.rdropWhile_prefix p _).sublist.trans (List.dropWhile_sublist p)

lemma eq_false_of_head?_trimBoth {c : Char} (hc : (trimBoth p cs).head? = some c) :
    p c = false := by
  obtain ⟨t, ht⟩ := List.rdropWhile_prefix p (cs.dropWhile p)
  have hhead := List.head?_dropWhile_not p cs
  rw [← ht, List.head?_append, ← trimBoth_eq, hc] at hhead
  simpa using hhead

lemma eq_false_of_getLast?_trimBoth {c : Char} (hc : (trimBoth p cs).getLast? = some c) :
    p c = false := by
  have hne : trimBoth p cs ≠ [] := by
    intro hnil
    simp [hnil] at hc
  have hlast := List.rdropWhile_last_not p (cs.dropWhile p) hne
  rw [List.getLast?_eq_some_getLast hne, Option.some.injEq] at hc
  rw [← hc]
  exact Bool.eq_false_iff.mpr hlast

lemma trimBoth_eq_self (hhead : ∀ c, cs.head? = some c → p c = false)
    (hlast : ∀ c, cs.getLast? = some c → p c = false) : trimBoth p cs = cs := by
  have hdrop : cs.dropWhile p = cs := by
    cases cs with
    | nil => rfl
    | cons c cs => exact List.dropWhile_cons_of_neg (by simp [hhead c rfl])
  rw [trimBoth_eq, hdrop, List.rdropWhile_eq_self_iff]
  intro hne
  rw [hlast _ (List.getLast?_eq_some_getLast hne)]
  exact Bool.false_ne_true

/-- A text with such a character at one of its ends gets shorter. -/
lemma length_trimBoth_lt {c : Char} (hc : p c = true)
    (h : cs.head? = some c ∨ cs.getLast? = some c) : (trimBoth p cs).length < cs.length := by
  refine lt_of_le_of_ne (trimBoth_sublist p cs).length_le fun hlength => ?_
  have hsame := (trimBoth_sublist p cs).eq_of_length hlength
  have hfalse : p c = false := by
    rcases h with h | h
    · exact eq_false_of_head?_trimBoth (hsame.symm ▸ h)
    · exact eq_false_of_getLast?_trimBoth (hsame.symm ▸ h)
  rw [hc] at hfalse
  cases hfalse

end TrimBoth

/-! ## Trimmed text -/

lemma trim_eq (cs : List Char) : trim cs = (cs.dropWhile isBlank).rdropWhile isBlank := rfl

/-- A text is its trimmed part between two gaps. -/
lemma exists_gaps (cs : List Char) : ∃ a b, Blank a ∧ Blank b ∧ cs = a ++ trim cs ++ b := by
  refine ⟨cs.takeWhile isBlank, (cs.dropWhile isBlank).rtakeWhile isBlank, ?_, ?_, ?_⟩
  · intro c hc
    exact List.mem_takeWhile_imp hc
  · intro c hc
    exact List.mem_rtakeWhile_imp hc
  · rw [trim_eq, List.append_assoc, List.rdropWhile_append_rtakeWhile,
      List.takeWhile_append_dropWhile]

lemma trimmed_trim (cs : List Char) : Trimmed (trim cs) :=
  ⟨fun _ => eq_false_of_head?_trimBoth, fun _ => eq_false_of_getLast?_trimBoth⟩

lemma dropWhile_gap {a m : List Char} (ha : Blank a)
    (hm : ∀ c, m.head? = some c → isBlank c = false) : (a ++ m).dropWhile isBlank = m :=
  (span_append m ha hm).2

lemma exists_gap_of_not_blank {cs : List Char} (h : ¬ Blank cs) :
    ∃ gap c rest, Blank gap ∧ isBlank c = false ∧ cs = gap ++ c :: rest := by
  have hgap : Blank (cs.takeWhile isBlank) := fun c hc => List.mem_takeWhile_imp hc
  have hsplit := List.takeWhile_append_dropWhile (p := isBlank) (l := cs)
  have hhead := List.head?_dropWhile_not isBlank cs
  cases hdrop : cs.dropWhile isBlank with
  | nil =>
    rw [hdrop, List.append_nil] at hsplit
    exact absurd (hsplit ▸ hgap) h
  | cons c rest =>
    rw [hdrop] at hsplit hhead
    exact ⟨_, c, rest, hgap, by simpa using hhead, hsplit.symm⟩

/-- A trimmed text is recovered from between two gaps. -/
lemma trim_of_gaps {a m b : List Char} (ha : Blank a) (hb : Blank b) (hm : Trimmed m) :
    trim (a ++ m ++ b) = m := by
  cases m with
  | nil =>
    rw [trim_eq, List.append_nil, List.dropWhile_eq_nil_iff.mpr (ha.append hb),
      List.rdropWhile_nil]
  | cons c m =>
    have hend : ((c :: m) ++ b).rdropWhile isBlank = c :: m := by
      rw [List.rdropWhile, List.reverse_append, dropWhile_gap, List.reverse_reverse]
      · intro d hd
        exact hb d (List.mem_reverse.mp hd)
      · intro d hd
        exact hm.last d (by rwa [List.head?_reverse] at hd)
    rw [trim_eq, List.append_assoc, dropWhile_gap ha, hend]
    intro d hd
    exact hm.head d (by simpa using hd)

lemma Trimmed.trim_eq_self {cs : List Char} (h : Trimmed cs) : trim cs = cs := by
  simpa using trim_of_gaps blank_nil blank_nil h

@[simp] lemma trim_trim (cs : List Char) : trim (trim cs) = trim cs :=
  (trimmed_trim cs).trim_eq_self

@[simp] lemma trimmed_trimmed (s : String) : trimmed (trimmed s) = trimmed s := by
  rw [trimmed, trimmed, String.toList_ofList, trim_trim]

lemma Trimmed.trimmed_eq_self {s : String} (h : Trimmed s.toList) : trimmed s = s := by
  rw [trimmed, h.trim_eq_self, String.ofList_toList]

lemma trim_eq_nil_iff {cs : List Char} : trim cs = [] ↔ Blank cs := by
  constructor
  · intro h
    obtain ⟨a, b, ha, hb, hcs⟩ := exists_gaps cs
    rw [hcs, h, List.append_nil]
    exact ha.append hb
  · intro h
    simpa using trim_of_gaps h blank_nil (m := []) ⟨by simp, by simp⟩

/-- Gaps around a text do not count. -/
lemma trim_append_gaps {a b : List Char} (ha : Blank a) (hb : Blank b) (cs : List Char) :
    trim (a ++ cs ++ b) = trim cs := by
  obtain ⟨a', b', ha', hb', hcs⟩ := exists_gaps cs
  have hregroup : a ++ cs ++ b = (a ++ a') ++ trim cs ++ (b' ++ b) := by
    conv_lhs => rw [hcs]
    simp only [List.append_assoc]
  rw [hregroup, trim_of_gaps (ha.append ha') (hb'.append hb) (trimmed_trim cs)]

end Verdict.Text
