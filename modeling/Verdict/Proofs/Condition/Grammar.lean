import Verdict.Proofs.Condition
/-
The grammar of conditions.

A condition is a name, a run of comparator characters and a right-hand side, with gaps between
them (`Condition.Layout`).  There is at most one way to see a text so (`Layout.eq_of_chars_eq`), and
the greedy cut finds it where there is one (`exists_layout_of_runs`): no run could end earlier than
it does, for then what is left of it would have to begin the next part.

So the grammar tells what a text is split into, which comparators are refused and which texts are
no conditions (`Condition.split_decided`).
-/
namespace Verdict

namespace Comparator

lemma ofSymbol?_eq_some_iff {symbol : String} {comparator : Comparator} :
    ofSymbol? symbol = some comparator ↔ symbol = comparator.symbol := by
  constructor
  · intro h
    rw [ofSymbol?] at h
    have hsymbol : (comparator.symbol == symbol) = true := by simpa using List.find?_some h
    exact (beq_iff_eq.mp hsymbol).symm
  · rintro rfl
    exact ofSymbol?_symbol comparator

lemma ofSymbol?_eq_none_iff {symbol : String} :
    ofSymbol? symbol = none ↔ ∀ comparator : Comparator, symbol ≠ comparator.symbol := by
  rw [Option.eq_none_iff_forall_ne_some]
  exact forall_congr' fun comparator => not_congr ofSymbol?_eq_some_iff

end Comparator

namespace Condition

open Text (Blank isBlank isWordChar)
open Comparator (isSymbolChar ofSymbol?_eq_some_iff ofSymbol?_eq_none_iff)

/-- A way to see a text as a condition. -/
@[ext]
structure Layout where
  name : List Char
  /-- What stands between the name and the comparator. -/
  gap : List Char
  /-- As many comparator characters as there are, whether they write a comparator or not. -/
  symbol : List Char
  /-- What stands between the comparator and the right-hand side. -/
  gap' : List Char
  literal : List Char
  spaced : Spaced name gap symbol gap' literal

namespace Layout

/-- The text that is seen so. -/
def chars (s : Layout) : List Char :=
  s.name ++ (s.gap ++ (s.symbol ++ (s.gap' ++ s.literal)))

/-- `text` is seen so, without the blanks around it. -/
def Fits (s : Layout) (text : String) : Prop := s.chars = Text.trim text.toList

lemma runs_chars (s : Layout) : runs s.chars = (s.name, s.symbol, s.literal) :=
  runs_of_spaced s.spaced

/-- There is only one way to see a text as a condition. -/
theorem eq_of_chars_eq {s t : Layout} (h : s.chars = t.chars) : s = t := by
  have hruns : (s.name, s.symbol, s.literal) = (t.name, t.symbol, t.literal) := by
    rw [← runs_chars, h, runs_chars]
  obtain ⟨hname, hsymbol, hliteral⟩ : s.name = t.name ∧ s.symbol = t.symbol ∧
      s.literal = t.literal := by simpa using hruns
  have hgap : s.gap = t.gap := by
    rw [← s.spaced.span_gap.1, ← s.spaced.span_name.2, ← t.spaced.span_gap.1,
      ← t.spaced.span_name.2]
    exact congrArg (fun cs => (cs.dropWhile isWordChar).takeWhile isBlank) h
  have hgap' : s.gap' = t.gap' := by
    rw [chars, chars, hname, hgap, hsymbol, hliteral] at h
    simpa using h
  exact Layout.ext hname hgap hsymbol hgap' hliteral

end Layout

lemma eq_false_of_head?_dropWhile {p : Char → Bool} {cs : List Char} {c : Char}
    (h : (cs.dropWhile p).head? = some c) : p c = false := by
  have hhead := List.head?_dropWhile_not p cs
  rw [h] at hhead
  simpa using hhead

/-- If none of the runs of a text is empty, they are the parts of a condition. -/
lemma exists_layout_of_runs {cs name symbol literal : List Char}
    (h : runs cs = (name, symbol, literal)) (hname : name ≠ []) (hsymbol : symbol ≠ [])
    (hliteral : literal ≠ []) : ∃ s : Layout, s.chars = cs := by
  obtain ⟨rfl, hrest⟩ := Prod.mk.inj h
  obtain ⟨rfl, rfl⟩ := Prod.mk.inj hrest
  -- what is left behind the first gap, and behind the comparator
  let rest := (cs.dropWhile isWordChar).dropWhile isBlank
  let rest' := rest.dropWhile isSymbolChar
  have hspaced : Spaced (cs.takeWhile isWordChar) ((cs.dropWhile isWordChar).takeWhile isBlank)
      (rest.takeWhile isSymbolChar) (rest'.takeWhile isBlank) (rest'.dropWhile isBlank) :=
    { name_ne_nil := hname
      isWordChar_name := fun c hc => List.mem_takeWhile_imp hc
      blank_gap := fun c hc => List.mem_takeWhile_imp hc
      symbol_ne_nil := hsymbol
      isSymbolChar_symbol := fun c hc => List.mem_takeWhile_imp hc
      blank_gap' := fun c hc => List.mem_takeWhile_imp hc
      literal_ne_nil := hliteral
      literal_head := by
        intro c hc
        refine ⟨eq_false_of_head?_dropWhile hc, fun hnil => ?_⟩
        have hrest' : rest'.dropWhile isBlank = rest' := by
          simpa [hnil] using List.takeWhile_append_dropWhile (p := isBlank) (l := rest')
        rw [hrest'] at hc
        exact eq_false_of_head?_dropWhile hc }
  refine ⟨⟨_, _, _, _, _, hspaced⟩, ?_⟩
  simp only [Layout.chars, rest, rest', List.takeWhile_append_dropWhile]

/-! ## Split texts -/

section Split

variable {text : String} {s : Layout}

lemma Layout.Fits.unique (hs : s.Fits text) {t : Layout} (ht : t.Fits text) : s = t :=
  eq_of_chars_eq (hs.trans ht.symm)

/-- How a condition is split that is seen in the given way. -/
lemma Layout.Fits.split_eq (h : s.Fits text) :
    split text =
      match Comparator.ofSymbol? (.ofList s.symbol) with
      | some comparator => .ok ⟨.ofList s.name, comparator, .ofList s.literal⟩
      | none => .error (.unsupportedComparator (Text.trimmed text) (.ofList s.symbol)) := by
  have hparts : ((s.name.isEmpty || s.symbol.isEmpty) || s.literal.isEmpty) = false := by
    rw [List.isEmpty_eq_false_iff.mpr s.spaced.name_ne_nil,
      List.isEmpty_eq_false_iff.mpr s.spaced.symbol_ne_nil,
      List.isEmpty_eq_false_iff.mpr s.spaced.literal_ne_nil]
    rfl
  have htrim : Text.trim text.toList = s.chars := h.symm
  cases hsymbol : Comparator.ofSymbol? (.ofList s.symbol) <;>
    simp [split, htrim, s.runs_chars, hparts, Text.trimmed, hsymbol]

/-- A text that cannot be seen as a condition is none. -/
lemma split_of_not_fits (h : ∀ s : Layout, ¬ s.Fits text) :
    split text = .error (.invalidFormat (Text.trimmed text)) := by
  rcases hruns : runs (Text.trim text.toList) with ⟨name, symbol, literal⟩
  have hparts : ((name.isEmpty || symbol.isEmpty) || literal.isEmpty) = true := by
    by_contra hparts
    simp only [Bool.or_eq_true, List.isEmpty_iff, not_or] at hparts
    obtain ⟨s, hs⟩ := exists_layout_of_runs hruns hparts.1.1 hparts.1.2 hparts.2
    exact h s hs
  simp only [split, hruns, hparts, if_true, Text.trimmed]

/-- The parts of a condition, written with other gaps between them, are seen as they were. -/
lemma Layout.Fits.respaced (h : s.Fits text) {t : Layout} (hliteral : t.literal = s.literal) :
    t.Fits (.ofList t.chars) := by
  have hlast : ∀ c, t.literal.getLast? = some c → isBlank c = false := by
    intro c hc
    refine (Text.trimmed_trim text.toList).last c ?_
    rw [← show s.chars = Text.trim text.toList from h, Layout.chars]
    simp only [← List.append_assoc]
    rw [List.getLast?_append_of_ne_nil _ s.spaced.literal_ne_nil, ← hliteral, hc]
  have htrimmed : Text.trim t.chars = t.chars := (t.spaced.trimmed hlast).trim_eq_self
  rw [Layout.Fits, String.toList_ofList, htrimmed]

/-- The parts are those of a way to see the text whose run writes the comparator. -/
lemma split_eq_ok_iff {parts : Parts} :
    split text = .ok parts ↔ ∃ s : Layout, s.Fits text ∧ s.name = parts.name.toList ∧
      s.symbol = parts.comparator.symbol.toList ∧ s.literal = parts.literal.toList := by
  constructor
  · intro h
    by_cases hfits : ∃ s : Layout, s.Fits text
    · obtain ⟨s, hs⟩ := hfits
      rw [hs.split_eq] at h
      split at h
      case h_1 comparator hcomparator =>
        obtain rfl := Except.ok.inj h
        have hsymbol := congrArg String.toList (ofSymbol?_eq_some_iff.mp hcomparator)
        rw [String.toList_ofList] at hsymbol
        exact ⟨s, hs, by simp, hsymbol, by simp⟩
      case h_2 => cases h
    · rw [split_of_not_fits (not_exists.mp hfits)] at h
      cases h
  · rintro ⟨s, hs, hname, hsymbol, hliteral⟩
    rw [hs.split_eq, hname, hsymbol, hliteral, String.ofList_toList, Comparator.ofSymbol?_symbol]
    simp

/-- A run of comparator characters is refused if no comparator is written so. -/
lemma split_eq_unsupportedComparator_iff {condition symbol : String} :
    split text = .error (.unsupportedComparator condition symbol) ↔
      condition = Text.trimmed text ∧ ∃ s : Layout, s.Fits text ∧ s.symbol = symbol.toList ∧
        ∀ comparator : Comparator, symbol ≠ comparator.symbol := by
  constructor
  · intro h
    by_cases hfits : ∃ s : Layout, s.Fits text
    · obtain ⟨s, hs⟩ := hfits
      rw [hs.split_eq] at h
      split at h
      case h_1 => cases h
      case h_2 hcomparator =>
        obtain ⟨rfl, rfl⟩ : Text.trimmed text = condition ∧ String.ofList s.symbol = symbol := by
          simpa using h
        exact ⟨rfl, s, hs, by simp, ofSymbol?_eq_none_iff.mp hcomparator⟩
    · rw [split_of_not_fits (not_exists.mp hfits)] at h
      cases h
  · rintro ⟨rfl, s, hs, hsymbol, hnone⟩
    rw [hs.split_eq, hsymbol, String.ofList_toList, ofSymbol?_eq_none_iff.mpr hnone]

lemma split_eq_invalidFormat_iff {condition : String} :
    split text = .error (.invalidFormat condition) ↔
      condition = Text.trimmed text ∧ ∀ s : Layout, ¬ s.Fits text := by
  constructor
  · intro h
    by_cases hfits : ∃ s : Layout, s.Fits text
    · obtain ⟨s, hs⟩ := hfits
      rw [hs.split_eq] at h
      split at h <;> cases h
    · rw [split_of_not_fits (not_exists.mp hfits)] at h
      obtain rfl : Text.trimmed text = condition := by simpa using h
      exact ⟨rfl, not_exists.mp hfits⟩
  · rintro ⟨rfl, h⟩
    exact split_of_not_fits h

end Split

/-- **What a text is split into.**  It has the parts of the one way in which it can be seen,
without the blanks around it, as a condition.  If the run of comparator characters is no
comparator, the error names the run, and if the text cannot be seen as a condition at all, the
error names the text.  Other gaps change nothing about the parts, as long as the comparator does
not go on with the right-hand side. -/
theorem split_decided (text : String) :
    (∀ parts, split text = .ok parts ↔ ∃ s : Layout, s.Fits text ∧ s.name = parts.name.toList ∧
      s.symbol = parts.comparator.symbol.toList ∧ s.literal = parts.literal.toList) ∧
    (∀ condition symbol, split text = .error (.unsupportedComparator condition symbol) ↔
      condition = Text.trimmed text ∧ ∃ s : Layout, s.Fits text ∧ s.symbol = symbol.toList ∧
        ∀ comparator : Comparator, symbol ≠ comparator.symbol) ∧
    (∀ condition, split text = .error (.invalidFormat condition) ↔
      condition = Text.trimmed text ∧ ∀ s : Layout, ¬ s.Fits text) ∧
    (∀ s t : Layout, s.Fits text → t.Fits text → s = t) ∧
    ∀ s t : Layout, s.Fits text →
      t.name = s.name → t.symbol = s.symbol → t.literal = s.literal →
      (∀ parts, split text = .ok parts → split (.ofList t.chars) = .ok parts) ∧
      ∀ condition symbol, split text = .error (.unsupportedComparator condition symbol) →
        split (.ofList t.chars) = .error (.unsupportedComparator (.ofList t.chars) symbol) := by
  refine ⟨fun _ => split_eq_ok_iff, fun _ _ => split_eq_unsupportedComparator_iff,
    fun _ => split_eq_invalidFormat_iff, fun _ _ hs ht => hs.unique ht, ?_⟩
  intro s t hs hname hsymbol hliteral
  have ht : t.Fits (.ofList t.chars) := hs.respaced hliteral
  constructor
  · intro parts h
    obtain ⟨s', hs', hname', hsymbol', hliteral'⟩ := split_eq_ok_iff.mp h
    obtain rfl : s = s' := hs.unique hs'
    exact split_eq_ok_iff.mpr ⟨t, ht, hname.trans hname', hsymbol.trans hsymbol',
      hliteral.trans hliteral'⟩
  · intro condition symbol h
    obtain ⟨-, s', hs', hsymbol', hnone⟩ := split_eq_unsupportedComparator_iff.mp h
    obtain rfl : s = s' := hs.unique hs'
    have htrimmed : Text.trimmed (.ofList t.chars) = .ofList t.chars :=
      congrArg String.ofList ht.symm
    exact split_eq_unsupportedComparator_iff.mpr ⟨htrimmed.symm, t, ht, hsymbol.trans hsymbol',
      hnone⟩

end Condition
end Verdict
