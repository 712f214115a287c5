import Verdict.Proofs.Condition.Grammar
import Verdict.Proofs.Number.Shortest
/-
Conditions and their normal forms.

The normal form of a condition writes a text between quotes, and a reader takes off all the quotes
that it finds at the ends of what is written.  So a text that has quotes at its ends loses them,
and no other text does; and whatever a text looks like, between quotes it is no number
(`Condition.reparse_display`).

A number is written with the shortest digits that are read as the number, so it is the same number
again.
-/
namespace Verdict

open Text (Trimmed isBlank isWordChar)

/-! ## Numerals -/

namespace Decimal

/-- The characters of numerals. -/
def isNumeralChar (c : Char) : Bool :=
  c.isDigit || c == '+' || c == '-' || c == '.' || c == 'e' || c == 'E'

lemma isNumeralChar_of_isDigit {c : Char} (h : c.isDigit = true) : isNumeralChar c = true := by
  simp [isNumeralChar, h]

lemma isBlank_eq_false_of_isNumeralChar {c : Char} (h : isNumeralChar c = true) :
    isBlank c = false := by
  simp only [isNumeralChar, Bool.or_eq_true, beq_iff_eq] at h
  rcases h with ((((hdigit | rfl) | rfl) | rfl) | rfl) | rfl
  · refine Text.isBlank_eq_false_of_isWordChar ?_
    simp [isWordChar, Char.isAlphanum, hdigit]
  all_goals decide

lemma forall_spanSign {cs : List Char} (h : ∀ c ∈ (spanSign cs).2, isNumeralChar c = true) :
    ∀ c ∈ cs, isNumeralChar c = true := by
  rcases cs with _ | ⟨c, cs⟩
  · exact h
  · by_cases hminus : c = '-'
    · subst hminus
      exact List.forall_mem_cons.mpr ⟨by decide, h⟩
    · by_cases hplus : c = '+'
      · subst hplus
        exact List.forall_mem_cons.mpr ⟨by decide, h⟩
      · have hsame : spanSign (c :: cs) = (false, c :: cs) := by
          rw [spanSign]
          · simpa using hminus
          · simpa using hplus
        rw [hsame] at h
        exact h

lemma forall_spanDigits {cs : List Char} (h : ∀ c ∈ (spanDigits cs).2, isNumeralChar c = true) :
    ∀ c ∈ cs, isNumeralChar c = true := by
  intro c hc
  rw [← List.takeWhile_append_dropWhile (p := Char.isDigit) (l := cs), List.mem_append] at hc
  rcases hc with hc | hc
  · exact isNumeralChar_of_isDigit (List.mem_takeWhile_imp hc)
  · exact h c hc

lemma forall_exponentOf? {cs : List Char} {exponent : Int} (h : exponentOf? cs = some exponent) :
    ∀ c ∈ cs, isNumeralChar c = true := by
  cases cs with
  | nil => simp
  | cons c rest =>
    simp only [exponentOf?, Option.ite_none_right_eq_some, Bool.and_eq_true, Bool.or_eq_true,
      beq_iff_eq] at h
    obtain ⟨⟨⟨hc, -⟩, hdigits⟩, -⟩ := h
    refine List.forall_mem_cons.mpr ⟨?_, forall_spanSign fun d hd => ?_⟩
    · rcases hc with rfl | rfl <;> decide
    · exact isNumeralChar_of_isDigit (List.all_eq_true.mp hdigits d hd)

/-- A numeral consists of the characters of numerals, of which there is at least one. -/
lemma forall_of_ofText? {cs : List Char} {d : Decimal} (h : ofText? cs = some d) :
    cs ≠ [] ∧ ∀ c ∈ cs, isNumeralChar c = true := by
  simp only [ofText?, Option.ite_none_left_eq_some, Option.map_eq_some_iff] at h
  obtain ⟨hdigits, exponent, hexponent, -⟩ := h
  constructor
  · rintro rfl
    exact hdigits rfl
  · refine forall_spanSign (forall_spanDigits ?_)
    have hrest := forall_exponentOf? hexponent
    revert hrest
    rcases (spanDigits (spanSign cs).2).2 with _ | ⟨c, rest⟩
    · simp
    · intro hrest
      by_cases hpoint : c = '.'
      · subst hpoint
        exact List.forall_mem_cons.mpr ⟨by decide, forall_spanDigits hrest⟩
      · have hsame : spanFraction (c :: rest) = ([], c :: rest) := by
          rw [spanFraction]
          simpa using hpoint
        rwa [hsame] at hrest

end Decimal

/-! ## Values -/

namespace Value

/-- A text as the right-hand side of a condition that has it as its value. -/
lemma trimmed_of_ofLiteral {raw s : String} (h : ofLiteral raw = .text s) :
    Text.trimmed s = s := by
  rw [ofLiteral] at h
  split at h
  · cases h
  · obtain rfl := Value.text.inj h
    simp [Text.trimmed]

/-- What starts with a quote is a text, also if it is a numeral between quotes. -/
lemma exists_text_of_quote {raw : String} (h : raw.toList.head? = some '\'') :
    ∃ s, ofLiteral raw = .text s := by
  have hquote : isBlank '\'' = false := by decide
  obtain ⟨a, b, ha, hb, hraw⟩ := Text.exists_gaps raw.toList
  rw [hraw] at h
  -- no blank is a quote, so the quote is the first character of the trimmed text
  obtain rfl : a = [] := by
    cases a with
    | nil => rfl
    | cons c a =>
      obtain rfl : c = '\'' := by simpa using h
      rw [ha _ List.mem_cons_self] at hquote
      cases hquote
  cases htrim : Text.trim raw.toList with
  | nil =>
    rw [htrim] at h
    have hmem : '\'' ∈ b := List.mem_of_mem_head? (by simpa using h)
    rw [hb _ hmem] at hquote
    cases hquote
  | cons c cs =>
    rw [htrim] at h
    obtain rfl : c = '\'' := by simpa using h
    rw [ofLiteral, htrim, finiteNumber?_quote]
    exact ⟨_, rfl⟩

/-- What is written of a text is read as a text again, and as a shorter one if the text has a quote
at one of its ends. -/
lemma exists_text_of_display (s : String) :
    ∃ s', ofLiteral (text s).display = .text s' ∧
      (s.toList.head? = some '\'' ∨ s.toList.getLast? = some '\'' → s'.length < s.length) := by
  refine ⟨_, ofLiteral_display_text s, ?_⟩
  intro h
  rw [String.length_ofList, ← String.length_toList]
  calc (Text.trim (Text.trimBoth (· == '\'') s.toList)).length
      ≤ (Text.trimBoth (· == '\'') s.toList).length := (Text.trimBoth_sublist _ _).length_le
    _ < s.toList.length := Text.length_trimBoth_lt (c := '\'') (by simp) h

variable {x : Binary64}

/-- The number of a condition is finite. -/
lemma isFinite_of_ofLiteral {raw : String} (h : ofLiteral raw = .number x) :
    x.isFinite = true := by
  rw [ofLiteral] at h
  split at h
  · rename_i heq
    obtain rfl := Value.number.inj h
    exact (Option.filter_eq_some_iff.mp heq).2
  · cases h

lemma trimmed_display_number (hfinite : x.isFinite = true) :
    (number x).display.toList ≠ [] ∧ Trimmed (number x).display.toList := by
  have h : finiteNumber? (number x).display.toList = some x := finiteNumber?_write hfinite
  rw [finiteNumber?, Option.filter_eq_some_iff, Option.map_eq_some_iff] at h
  obtain ⟨⟨d, hd, -⟩, -⟩ := h
  obtain ⟨hne, hchars⟩ := Decimal.forall_of_ofText? hd
  refine ⟨hne, ?_, ?_⟩
  · intro c hc
    exact Decimal.isBlank_eq_false_of_isNumeralChar (hchars c (List.mem_of_mem_head? hc))
  · intro c hc
    exact Decimal.isBlank_eq_false_of_isNumeralChar (hchars c (List.mem_of_getLast? hc))

lemma ofLiteral_display_number (hfinite : x.isFinite = true) :
    ofLiteral (number x).display = .number x := by
  have h : finiteNumber? (number x).display.toList = some x := finiteNumber?_write hfinite
  rw [ofLiteral, (trimmed_display_number hfinite).2.trim_eq_self, h]

section Literal

variable {raw : String} {v : Value}

/-- What is written of the value of a condition can stand on the right-hand side of one. -/
lemma trimmed_display (h : ofLiteral raw = v) :
    v.display.toList ≠ [] ∧ Trimmed v.display.toList := by
  cases v with
  | number x => exact trimmed_display_number (isFinite_of_ofLiteral h)
  | text s => exact ⟨by simp [toList_display_text], trimmed_display_text s⟩

/-- What is written of the value of a condition is read as the value, unless it is a text with a
quote at one of its ends. -/
lemma ofLiteral_display_eq_iff (h : ofLiteral raw = v) :
    ofLiteral v.display = v ↔ (∃ x, v = .number x) ∨
      ∃ s, v = .text s ∧ s.toList.head? ≠ some '\'' ∧ s.toList.getLast? ≠ some '\'' := by
  cases v with
  | number x =>
    have hread := ofLiteral_display_number (isFinite_of_ofLiteral h)
    exact iff_of_true hread (.inl ⟨x, rfl⟩)
  | text s =>
    constructor
    · intro hsame
      refine .inr ⟨s, rfl, not_or.mp ?_⟩
      intro hends
      obtain ⟨s', hs', hshort⟩ := exists_text_of_display s
      obtain rfl : s' = s := text.inj (hs'.symm.trans hsame)
      exact absurd (hshort hends) (Nat.lt_irrefl _)
    · rintro (⟨x, hx⟩ | ⟨t, ht, hhead, hlast⟩)
      · cases hx
      · obtain rfl := text.inj ht
        exact ofLiteral_display_of_ends hhead hlast (trimmed_of_ofLiteral h)

end Literal

end Value

namespace Condition

/-- The name of a condition is a word. -/
lemma name_of_split {text : String} {parts : Parts} (h : split text = .ok parts) :
    parts.name.toList ≠ [] ∧ ∀ c ∈ parts.name.toList, isWordChar c = true := by
  obtain ⟨s, -, hname, -, -⟩ := split_eq_ok_iff.mp h
  rw [← hname]
  exact ⟨s.spaced.name_ne_nil, s.spaced.isWordChar_name⟩

lemma exists_parts_of_parse {text : String} {c : Condition} (h : parse text = .ok c) :
    ∃ parts, split text = .ok parts ∧
      c = ⟨parts.name, parts.comparator, .ofLiteral parts.literal⟩ := by
  rw [parse] at h
  cases hsplit : split text with
  | error error => simp [hsplit, Except.map] at h
  | ok parts => exact ⟨parts, rfl, by simpa [hsplit, Except.map] using h.symm⟩

/-- What the normal form of a condition is read as, if its value can be written. -/
lemma parse_display_eq {c : Condition} (hne : c.name.toList ≠ [])
    (hname : ∀ d ∈ c.name.toList, isWordChar d = true) (hvalue_ne : c.value.display.toList ≠ [])
    (hvalue : Trimmed c.value.display.toList) :
    parse c.display = .ok ⟨c.name, c.comparator, .ofLiteral c.value.display⟩ := by
  rw [parse, split_display hne hname hvalue hvalue_ne]
  rfl

/-- **The normal form of a condition.**  Let a condition be read of a text.  Then its normal form
is read as a condition with the same name and the same comparator.  It is the same condition if its
value is a number, or a text without a quote at either end; another text gets shorter.  No text
turns into a number, and what starts with a quote is a text, also if it is a numeral between
quotes. -/
theorem reparse_display {text : String} {c : Condition} (h : parse text = .ok c) :
    (∃ c', parse c.display = .ok c' ∧ c'.name = c.name ∧ c'.comparator = c.comparator ∧
      (c' = c ↔ (∃ x, c.value = .number x) ∨
        ∃ s, c.value = .text s ∧ s.toList.head? ≠ some '\'' ∧ s.toList.getLast? ≠ some '\'') ∧
      ∀ s, c.value = .text s → ∃ s', c'.value = .text s' ∧
        (s.toList.head? = some '\'' ∨ s.toList.getLast? = some '\'' → s'.length < s.length)) ∧
    ∀ parts, split text = .ok parts → parts.literal.toList.head? = some '\'' →
      ∃ s, c.value = .text s := by
  obtain ⟨parts, hparts, hc⟩ := exists_parts_of_parse h
  obtain ⟨hname_ne, hname⟩ : c.name.toList ≠ [] ∧ ∀ d ∈ c.name.toList, isWordChar d = true := by
    rw [hc]
    exact name_of_split hparts
  have hvalue : Value.ofLiteral parts.literal = c.value := by rw [hc]
  obtain ⟨hdisplay_ne, hdisplay⟩ := Value.trimmed_display hvalue
  have hparse := parse_display_eq hname_ne hname hdisplay_ne hdisplay
  refine ⟨⟨_, hparse, rfl, rfl, ?_, ?_⟩, ?_⟩
  · -- the name and the comparator are the same, so the value decides
    rw [← Value.ofLiteral_display_eq_iff hvalue]
    constructor
    · intro hsame
      exact congrArg Condition.value hsame
    · intro hsame
      rw [hsame]
  · intro s hs
    obtain ⟨s', hs', hshort⟩ := Value.exists_text_of_display s
    refine ⟨s', ?_, hshort⟩
    rw [hs, hs']
  · intro parts' hparts' hquote
    obtain rfl : parts = parts' := by simpa [hparts] using hparts'
    rw [← hvalue]
    exact Value.exists_text_of_quote hquote

/-- A number, and a numeral between two pairs of quotes. -/
theorem reparse_display_quoted :
    (parse "n>=+2.50" = .ok ⟨"n", .greaterEqual, .number ⟨0x4004000000000000⟩⟩ ∧
      ∃ c', parse "n >= 2.5" = .ok c' ∧ c' = ⟨"n", .greaterEqual, .number ⟨0x4004000000000000⟩⟩) ∧
    parse "a=' '42' '" = .ok ⟨"a", .equal, .text "'42'"⟩ ∧
      ∃ c' s', parse "a = ''42''" = .ok c' ∧ c'.value = .text s' ∧ s'.length < 4 := by
  have hnumber : parse "n>=+2.50" = .ok ⟨"n", .greaterEqual, .number ⟨0x4004000000000000⟩⟩ := by
    decide
  have htext : parse "a=' '42' '" = .ok ⟨"a", .equal, .text "'42'"⟩ := by decide
  obtain ⟨⟨c', hc', -, -, hsame, -⟩, -⟩ := reparse_display hnumber
  obtain ⟨⟨c'', hc'', -, -, -, hshort⟩, -⟩ := reparse_display htext
  obtain ⟨s', hs', hlength⟩ := hshort _ rfl
  have hdisplay : display ⟨"n", .greaterEqual, .number ⟨0x4004000000000000⟩⟩ = "n >= 2.5" := by
    decide +kernel
  exact ⟨⟨hnumber, c', hdisplay ▸ hc', hsame.mpr (.inl ⟨_, rfl⟩)⟩, htext, c'', s', hc'', hs',
    hlength (.inl rfl)⟩

end Condition
end Verdict
