import Verdict.Condition
import Verdict.Proofs.Text
/-
Conditions, cut into their parts.

A condition is cut greedily from the left, and this finds the parts again that were written
one after the other with gaps between them: the characters of a name, of a comparator and of
a gap are all different (`Condition.runs_of_spaced`).  Only where no gap is left in front of the
right-hand side does it matter how that begins.

A text between single quotes is read as the text alone, whatever it may look like otherwise
(`Value.ofLiteral_quoted`).
-/
namespace Verdict

open Text (Blank Trimmed isBlank isWordChar)

/-! ## Characters of comparators -/

namespace Comparator

lemma isWordChar_eq_false_of_isSymbolChar {c : Char} (h : isSymbolChar c = true) :
    isWordChar c = false := by
  simp only [isSymbolChar, Bool.or_eq_true, beq_iff_eq] at h
  rcases h with ((rfl | rfl) | rfl) | rfl <;> decide

lemma isBlank_eq_false_of_isSymbolChar {c : Char} (h : isSymbolChar c = true) :
    isBlank c = false := by
  simp only [isSymbolChar, Bool.or_eq_true, beq_iff_eq] at h
  rcases h with ((rfl | rfl) | rfl) | rfl <;> decide

lemma isSymbolChar_eq_false_of_isBlank {c : Char} (h : isBlank c = true) :
    isSymbolChar c = false := by
  refine Bool.eq_false_iff.mpr fun hsymbol => ?_
  simp [isBlank_eq_false_of_isSymbolChar hsymbol] at h

lemma isSymbolChar_of_mem_symbol {comparator : Comparator} {c : Char}
    (h : c ∈ comparator.symbol.toList) : isSymbolChar c = true := by
  have hall : comparator.symbol.toList.all isSymbolChar = true := by cases comparator <;> decide
  exact List.all_eq_true.mp hall c h

lemma symbol_ne_nil (comparator : Comparator) : comparator.symbol.toList ≠ [] := by
  cases comparator <;> decide

end Comparator

open Comparator (isSymbolChar)

namespace Condition

/-- The three parts of a condition, and the gaps between them. -/
structure Spaced (name gap symbol gap' literal : List Char) : Prop where
  name_ne_nil : name ≠ []
  isWordChar_name : ∀ c ∈ name, isWordChar c = true
  blank_gap : Blank gap
  symbol_ne_nil : symbol ≠ []
  isSymbolChar_symbol : ∀ c ∈ symbol, isSymbolChar c = true
  blank_gap' : Blank gap'
  literal_ne_nil : literal ≠ []
  /-- The right-hand side does not go on with what is in front of it. -/
  literal_head : ∀ c, literal.head? = some c →
    isBlank c = false ∧ (gap' = [] → isSymbolChar c = false)

section Spaced

variable {name gap symbol gap' literal : List Char}

lemma Spaced.isSymbolChar_head (h : Spaced name gap symbol gap' literal) {c : Char}
    (hc : (symbol ++ (gap' ++ literal)).head? = some c) : isSymbolChar c = true := by
  rw [List.head?_append_of_ne_nil _ h.symbol_ne_nil] at hc
  exact h.isSymbolChar_symbol c (List.mem_of_mem_head? hc)

/-- The name is all that consists of word characters. -/
lemma Spaced.span_name (h : Spaced name gap symbol gap' literal) :
    (name ++ (gap ++ (symbol ++ (gap' ++ literal)))).takeWhile isWordChar = name ∧
      (name ++ (gap ++ (symbol ++ (gap' ++ literal)))).dropWhile isWordChar =
        gap ++ (symbol ++ (gap' ++ literal)) := by
  refine Text.span_append _ h.isWordChar_name fun c hc => ?_
  rw [List.head?_append, Option.or_eq_some_iff] at hc
  rcases hc with hc | ⟨-, hc⟩
  · exact Text.isWordChar_eq_false_of_isBlank (h.blank_gap c (List.mem_of_mem_head? hc))
  · exact Comparator.isWordChar_eq_false_of_isSymbolChar (h.isSymbolChar_head hc)

/-- The first gap is all that is blank behind the name. -/
lemma Spaced.span_gap (h : Spaced name gap symbol gap' literal) :
    (gap ++ (symbol ++ (gap' ++ literal))).takeWhile isBlank = gap ∧
      (gap ++ (symbol ++ (gap' ++ literal))).dropWhile isBlank = symbol ++ (gap' ++ literal) :=
  Text.span_append _ h.blank_gap fun _ hc =>
    Comparator.isBlank_eq_false_of_isSymbolChar (h.isSymbolChar_head hc)

/-- The parts are found again. -/
theorem runs_of_spaced (h : Spaced name gap symbol gap' literal) :
    runs (name ++ (gap ++ (symbol ++ (gap' ++ literal)))) = (name, symbol, literal) := by
  have hcomparator := Text.span_append (gap' ++ literal) h.isSymbolChar_symbol (by
    intro c hc
    rw [List.head?_append, Option.or_eq_some_iff] at hc
    rcases hc with hc | ⟨hnil, hc⟩
    · exact Comparator.isSymbolChar_eq_false_of_isBlank (h.blank_gap' c (List.mem_of_mem_head? hc))
    · exact (h.literal_head c hc).2 (List.head?_eq_none_iff.mp hnil))
  have hgap' := Text.span_append literal h.blank_gap' fun c hc => (h.literal_head c hc).1
  simp only [runs, Text.trimStart, h.span_name.1, h.span_name.2, h.span_gap.2, hcomparator.1,
    hcomparator.2, hgap'.2]

lemma Spaced.trimmed (h : Spaced name gap symbol gap' literal)
    (hlast : ∀ c, literal.getLast? = some c → isBlank c = false) :
    Trimmed (name ++ (gap ++ (symbol ++ (gap' ++ literal)))) := by
  refine ⟨fun c hc => ?_, fun c hc => ?_⟩
  · rw [List.head?_append_of_ne_nil _ h.name_ne_nil] at hc
    exact Text.isBlank_eq_false_of_isWordChar (h.isWordChar_name c (List.mem_of_mem_head? hc))
  · simp only [← List.append_assoc] at hc
    rw [List.getLast?_append_of_ne_nil _ h.literal_ne_nil] at hc
    exact hlast c hc

/-- A condition is split into its parts, whatever gaps stand between them. -/
theorem split_of_spaced {comparator : Comparator}
    (h : Spaced name gap comparator.symbol.toList gap' literal)
    (hlast : ∀ c, literal.getLast? = some c → isBlank c = false) :
    split (.ofList (name ++ (gap ++ (comparator.symbol.toList ++ (gap' ++ literal))))) =
      .ok ⟨.ofList name, comparator, .ofList literal⟩ := by
  have hparts :
      ((name.isEmpty || comparator.symbol.toList.isEmpty) || literal.isEmpty) = false := by
    rw [List.isEmpty_eq_false_iff.mpr h.name_ne_nil, List.isEmpty_eq_false_iff.mpr h.symbol_ne_nil,
      List.isEmpty_eq_false_iff.mpr h.literal_ne_nil]
    rfl
  rw [split, String.toList_ofList, (h.trimmed hlast).trim_eq_self, runs_of_spaced h]
  simp only [hparts, String.ofList_toList, Comparator.ofSymbol?_symbol]
  rfl

end Spaced

/-! ## Conditions with one space between the parts -/

section Written

lemma spaced_written {name literal : List Char} (comparator : Comparator) (hne : name ≠ [])
    (hname : ∀ d ∈ name, isWordChar d = true) (hliteral : Trimmed literal)
    (hliteral_ne : literal ≠ []) :
    Spaced name [' '] comparator.symbol.toList [' '] literal where
  name_ne_nil := hne
  isWordChar_name := hname
  blank_gap := by decide
  symbol_ne_nil := comparator.symbol_ne_nil
  isSymbolChar_symbol := fun _ => Comparator.isSymbolChar_of_mem_symbol
  blank_gap' := by decide
  literal_ne_nil := hliteral_ne
  literal_head := fun d hd => ⟨hliteral.head d hd, fun hnil => by simp at hnil⟩

/-- Whichever comparator stands between them, the name and the right-hand side are the same. -/
lemma split_written {name literal : String} (comparator : Comparator) (hne : name.toList ≠ [])
    (hname : ∀ d ∈ name.toList, isWordChar d = true) (hliteral : Trimmed literal.toList)
    (hliteral_ne : literal.toList ≠ []) :
    split (name ++ " " ++ comparator.symbol ++ " " ++ literal) =
      .ok ⟨name, comparator, literal⟩ := by
  have htext : (name ++ " " ++ comparator.symbol ++ " " ++ literal).toList =
      name.toList ++ ([' '] ++ (comparator.symbol.toList ++ ([' '] ++ literal.toList))) := by
    simp [String.toList_append]
  have hsplit :=
    split_of_spaced (spaced_written comparator hne hname hliteral hliteral_ne) hliteral.last
  simpa only [← htext, String.ofList_toList] using hsplit

end Written

/-! ## Conditions in their normal form -/

section Display

variable {c : Condition}

lemma toList_display (c : Condition) :
    c.display.toList = c.name.toList ++ ([' '] ++ (c.comparator.symbol.toList ++
      ([' '] ++ c.value.display.toList))) := by
  simp [display, String.toList_append]

/-- A condition is split where it was put together. -/
lemma split_display (hne : c.name.toList ≠ []) (hname : ∀ d ∈ c.name.toList, isWordChar d = true)
    (hvalue : Trimmed c.value.display.toList) (hvalue_ne : c.value.display.toList ≠ []) :
    split c.display = .ok ⟨c.name, c.comparator, c.value.display⟩ :=
  split_written c.comparator hne hname hvalue hvalue_ne

end Display

end Condition

/-! ## Values -/

namespace Value

lemma toList_display_text (s : String) :
    (text s).display.toList = '\'' :: (s.toList ++ ['\'']) := by
  simp [display, String.toList_append]

lemma trimmed_quoted (cs : List Char) : Trimmed ('\'' :: (cs ++ ['\''])) := by
  refine ⟨fun c hc => ?_, fun c hc => ?_⟩
  · obtain rfl : '\'' = c := by simpa using hc
    decide
  · obtain rfl : '\'' = c := by simpa [List.getLast?_cons] using hc
    decide

lemma trimmed_display_text (s : String) : Trimmed (text s).display.toList := by
  rw [toList_display_text]
  exact trimmed_quoted s.toList

/-- No numeral starts with a quote. -/
lemma finiteNumber?_quote (cs : List Char) : finiteNumber? ('\'' :: cs) = none := rfl

/-- The quotes around a text are taken off together with those at its ends. -/
lemma trimBoth_quoted (cs : List Char) :
    Text.trimBoth (· == '\'') ('\'' :: (cs ++ ['\''])) = Text.trimBoth (· == '\'') cs := by
  rw [Text.trimBoth_eq, Text.trimBoth_eq, List.dropWhile_cons_of_pos (by simp),
    List.dropWhile_append]
  cases hdrop : cs.dropWhile (· == '\'') with
  | nil => simp
  | cons c cs' => exact List.rdropWhile_concat_pos _ _ _ (by simp)

/-- What is read of a text between quotes. -/
lemma ofLiteral_display_text (s : String) :
    ofLiteral (text s).display =
      .text (.ofList (Text.trim (Text.trimBoth (· == '\'') s.toList))) := by
  rw [ofLiteral, (trimmed_display_text s).trim_eq_self, toList_display_text, finiteNumber?_quote]
  simp only [trimBoth_quoted]

/-- Between quotes, a text without quotes at its ends is the text itself, though it may look like
a number. -/
theorem ofLiteral_display_of_ends {s : String} (hhead : s.toList.head? ≠ some '\'')
    (hlast : s.toList.getLast? ≠ some '\'') (htrimmed : Text.trimmed s = s) :
    ofLiteral (text s).display = .text s := by
  have hquotes : Text.trimBoth (· == '\'') s.toList = s.toList := by
    refine Text.trimBoth_eq_self (fun c hc => ?_) (fun c hc => ?_)
    · exact beq_eq_false_iff_ne.mpr fun h => hhead (h ▸ hc)
    · exact beq_eq_false_iff_ne.mpr fun h => hlast (h ▸ hc)
  rw [ofLiteral_display_text, hquotes]
  exact congrArg Value.text htrimmed

end Value

end Verdict
