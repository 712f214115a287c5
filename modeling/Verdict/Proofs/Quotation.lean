import Verdict.Evaluation
import Verdict.Proofs.Condition
import Verdict.Proofs.Display
/-
Quoted texts in rules.

Whoever writes a rule around a text that comes from elsewhere puts the text between quotes.
Then nothing in the text is taken for a part of the rule, be it a parenthesis, a keyword, a
comparator or a numeral: the condition is one token (`QuotedCondition.ofText_display`), it is
split where it was put together, and its value is the text (`QuotedCondition.parse_display`).
So a formula of such conditions is read from its display as it was meant
(`Engine.parse_quoted`).  All that is asked of the text is that it has no quote and no
blanks at its ends, and of the name of the attribute that it is no keyword.
-/
namespace Verdict

open Text (Blank Trimmed isBlank isWordChar)
open Rule.Token (Quiet Starts DelimiterAt ofText isWordEdge)

/-! ## Texts in which no delimiter starts -/

namespace Rule.Token

lemma quiet_of_forall {cs : List Char}
    (h : ∀ c ∈ cs, c ≠ '(' ∧ c ≠ ')' ∧ isWordChar c = false) : Quiet cs := by
  intro i t hd
  have hi := hd.lt_length
  have hstarts := hd.2
  rw [List.drop_eq_getElem_cons hi] at hstarts
  obtain ⟨hopening, hclosing, hword⟩ := h _ (List.getElem_mem hi)
  rcases hstarts.head with hc | hc | hc
  · exact hopening hc
  · exact hclosing hc
  · simp [hc] at hword

/-- Two quiet texts are quiet side by side, if the first closes its quotes and no word lies
across the seam. -/
lemma Quiet.append {cs ds : List Char} (hcs : Quiet cs) (hds : Quiet ds)
    (hquotes : cs.count '\'' % 2 = 0)
    (hseam : isWordEdge cs.getLast? = true ∨ isWordEdge ds.head? = true) : Quiet (cs ++ ds) := by
  intro i t hd
  by_cases hi : i < cs.length
  · exact hcs i t ((delimiterAt_append_right hseam hi).mp hd)
  · have hlt := hd.lt_length
    rw [List.length_append] at hlt
    obtain ⟨j, rfl⟩ := Nat.exists_eq_add_of_le (Nat.le_of_not_lt hi)
    have happend := delimiterAt_append cs ds [] (t := t) hquotes hseam (Or.inr rfl)
      (j := j) (by omega)
    rw [List.append_nil] at happend
    exact hds j t (happend.mp hd)

/-- A word is quiet, unless it is a keyword. -/
lemma quiet_word {word : List Char} (hword : ∀ c ∈ word, isWordChar c = true)
    (hkeyword : ∀ op : Connective, word ≠ op.keyword.toList) : Quiet word := by
  intro i t hd
  have hi := hd.lt_length
  have hc := hword _ (List.getElem_mem hi)
  have hstarts := hd.2
  cases t with
  | opening =>
    rw [List.drop_eq_getElem_cons hi] at hstarts
    rw [show word[i] = '(' from Option.some.inj hstarts] at hc
    exact absurd hc (by decide)
  | closing =>
    rw [List.drop_eq_getElem_cons hi] at hstarts
    rw [show word[i] = ')' from Option.some.inj hstarts] at hc
    exact absurd hc (by decide)
  | operand text => exact hstarts
  | connective op =>
    obtain ⟨hbefore, rest, hrest, hbehind⟩ := hstarts
    -- no word character touches the keyword, so it is the whole word
    obtain rfl : i = 0 := by
      by_contra hpos
      have hne : word.take i ≠ [] := by
        simp only [ne_eq, List.take_eq_nil_iff, not_or]
        exact ⟨hpos, List.length_pos_iff.mp (by omega)⟩
      rw [List.getLast?_eq_some_getLast hne, isWordEdge_some,
        hword _ (List.mem_of_mem_take (List.getLast_mem hne))] at hbefore
      simp at hbefore
    rw [List.drop_zero] at hrest
    cases rest with
    | nil => exact hkeyword op (by simpa using hrest)
    | cons c rest =>
      rw [List.head?_cons, isWordEdge_some, hword c (by simp [hrest])] at hbehind
      simp at hbehind

/-- Between quotes no delimiter starts. -/
lemma quiet_quoted {cs : List Char} (hquote : '\'' ∉ cs) : Quiet ('\'' :: (cs ++ ['\''])) := by
  intro i t hd
  have hi := hd.lt_length
  cases i with
  | zero => rcases hd.2.head with hc | hc | hc <;> exact absurd hc (by decide)
  | succ i =>
    have hle : i ≤ cs.length := by
      simp only [List.length_cons, List.length_append, List.length_nil] at hi
      omega
    have hcount : (cs.take i).count '\'' = 0 :=
      List.count_eq_zero.mpr fun hmem => hquote (List.mem_of_mem_take hmem)
    have hquotes := hd.1
    rw [List.take_succ_cons, List.take_append_of_le_length hle, List.count_cons_self, hcount]
      at hquotes
    omega

/-- A quiet text without blanks at its ends is a single condition. -/
lemma ofText_of_quiet {text : String} (hquiet : Quiet text.toList) (htrimmed : Trimmed text.toList)
    (hne : text.toList ≠ []) : ofText text = [operand text] := by
  have hblank : ¬ Blank text.toList := by
    rwa [← Text.trim_eq_nil_iff, htrimmed.trim_eq_self]
  rw [ofText_eq_ofChars, ofChars_of_quiet hquiet, ofStretch, if_neg hblank, htrimmed.trim_eq_self,
    String.ofList_toList]

end Rule.Token

/-! ## Conditions -/

/-- A condition that compares an attribute with a text, which can be put between quotes. -/
structure QuotedCondition where
  name : String
  comparator : Comparator
  text : String
  name_ne_empty : name ≠ ""
  all_isWordChar_name : name.toList.all isWordChar = true
  name_ne_keyword : ∀ op : Connective, name ≠ op.keyword
  quote_not_mem : '\'' ∉ text.toList
  trimmed_text : Text.trimmed text = text

namespace QuotedCondition

variable (c : QuotedCondition)

/-- The condition as such. -/
def condition : Condition := ⟨c.name, c.comparator, .text c.text⟩

/-- The condition in its normal form, with the text between quotes. -/
def display : String := c.condition.display

/-- The condition compares the value of the attribute with the text; an attribute that is not
known differs from every text and satisfies nothing else. -/
def holds (ctx : Context) : Bool :=
  match ctx.get? c.name with
  | some value => value.compareWith c.comparator (.text c.text)
  | none => c.comparator == .notEqual

lemma isWordChar_name : ∀ d ∈ c.name.toList, isWordChar d = true :=
  List.all_eq_true.mp c.all_isWordChar_name

lemma name_ne_nil : c.name.toList ≠ [] := by simpa using c.name_ne_empty

lemma toList_value : c.condition.value.display.toList = '\'' :: (c.text.toList ++ ['\'']) :=
  Value.toList_display_text c.text

lemma toList_display :
    c.display.toList = c.name.toList ++ ([' '] ++ (c.comparator.symbol.toList ++
      ([' '] ++ '\'' :: (c.text.toList ++ ['\''])))) :=
  c.toList_value ▸ c.condition.toList_display

lemma trimmed_value : Trimmed c.condition.value.display.toList :=
  Value.trimmed_display_text c.text

lemma spaced : Condition.Spaced c.name.toList [' '] c.comparator.symbol.toList [' ']
    c.condition.value.display.toList :=
  Condition.spaced_written c.comparator c.name_ne_nil c.isWordChar_name c.trimmed_value
    (by simp [toList_value])

lemma split_display : Condition.split c.display =
    .ok ⟨c.name, c.comparator, c.condition.value.display⟩ :=
  Condition.split_display (c := c.condition) c.name_ne_nil c.isWordChar_name c.trimmed_value
    (by simp [toList_value])

/-- The text is read as it was put between the quotes. -/
theorem parse_display : Condition.parse c.display = .ok c.condition := by
  have hliteral : Value.ofLiteral c.condition.value.display = .text c.text :=
    Value.ofLiteral_display_of_ends (mt List.mem_of_mem_head? c.quote_not_mem)
      (mt List.mem_of_getLast? c.quote_not_mem) c.trimmed_text
  rw [Condition.parse, c.split_display]
  simp only [Except.map, hliteral]
  rfl

lemma count_name : c.name.toList.count '\'' = 0 := by
  refine List.count_eq_zero.mpr fun hmem => ?_
  exact absurd (c.isWordChar_name _ hmem) (by decide)

lemma count_symbol : c.comparator.symbol.toList.count '\'' = 0 := by
  cases c.comparator <;> decide

/-- The condition closes its quotes. -/
lemma count_display : c.display.toList.count '\'' = 2 := by
  have htext : c.text.toList.count '\'' = 0 := List.count_eq_zero.mpr c.quote_not_mem
  simp [toList_display, c.count_name, c.count_symbol, htext]

lemma quiet_symbol : Quiet c.comparator.symbol.toList := by
  refine Rule.Token.quiet_of_forall fun d hd => ?_
  have hsymbol := Comparator.isSymbolChar_of_mem_symbol hd
  refine ⟨?_, ?_, Comparator.isWordChar_eq_false_of_isSymbolChar hsymbol⟩
  · rintro rfl
    exact absurd hsymbol (by decide)
  · rintro rfl
    exact absurd hsymbol (by decide)

lemma quiet_display : Quiet c.display.toList := by
  have hspace : Blank [' '] := by decide
  have hname : Quiet c.name.toList := by
    refine Rule.Token.quiet_word c.isWordChar_name fun op h => ?_
    exact c.name_ne_keyword op (String.toList_inj.mp h)
  have hliteral := (Rule.Token.quiet_quoted c.quote_not_mem).gap_append hspace
  have hsymbol := c.quiet_symbol.append hliteral (by rw [c.count_symbol]) (Or.inr rfl)
  rw [toList_display]
  exact hname.append (hsymbol.gap_append hspace) (by rw [c.count_name]) (Or.inr rfl)

/-- The condition is a single token when it stands alone. -/
theorem ofText_display : ofText c.display = [.operand c.display] := by
  have htrimmed : Trimmed c.display.toList := by
    rw [c.toList_display, ← c.toList_value]
    exact c.spaced.trimmed c.trimmed_value.last
  refine Rule.Token.ofText_of_quiet c.quiet_display htrimmed ?_
  simp [toList_display]

end QuotedCondition

/-! ## Formulas -/

/-- A formula of such conditions. -/
inductive QuotedFormula where
  | leaf (c : QuotedCondition)
  | join (op : Connective) (left right : QuotedFormula)

namespace QuotedFormula

/-- The formula with the texts of its conditions. -/
def formula : QuotedFormula → Formula
  | leaf c => .leaf c.display
  | join op left right => .join op left.formula right.formula

/-- The truth of the formula, by that of its conditions. -/
def holds (ctx : Context) : QuotedFormula → Bool
  | leaf c => c.holds ctx
  | join .and left right => left.holds ctx && right.holds ctx
  | join .or left right => left.holds ctx || right.holds ctx

lemma exists_of_mem_conditions {t : QuotedFormula} {text : String}
    (h : text ∈ t.formula.conditions) : ∃ c : QuotedCondition, text = c.display := by
  induction t with
  | leaf c => exact ⟨c, List.mem_singleton.mp h⟩
  | join op left right ihl ihr =>
    rcases List.mem_append.mp h with h | h
    · exact ihl h
    · exact ihr h

lemma evaluate_formula (t : QuotedFormula) (ctx : Context) :
    t.formula.evaluate ctx = t.holds ctx := by
  induction t with
  | leaf c =>
    show Condition.holdsAt ctx c.display = c.holds ctx
    rw [Condition.holdsAt, Condition.outcome, c.parse_display]
    rfl
  | join op left right ihl ihr =>
    rw [formula, Formula.evaluate, ihl, ihr]
    cases op <;> rfl

end QuotedFormula

namespace Engine

/-- **A quoted text is inert.**  Let each condition of a formula compare an attribute with a
quoted text.  If the formula keeps to the limit, it is read again from its display, and it is
true if its conditions make it so, each of which compares the value of its attribute with its
text. -/
theorem parse_quoted (e : Engine) (t : QuotedFormula) (h : t.formula.depth ≤ e.maxDepth) :
    e.parse (Rule.ofFormula t.formula).display = .ok (.ofFormula t.formula) ∧
      ∀ ctx, (Rule.ofFormula t.formula).evaluate ctx = t.holds ctx := by
  refine ⟨parse_display ⟨h, fun text htext => ?_, fun text htext => ?_⟩ (.inr fun text htext => ?_),
    t.evaluate_formula⟩
  · obtain ⟨c, rfl⟩ := QuotedFormula.exists_of_mem_conditions htext
    exact c.ofText_display
  · obtain ⟨c, rfl⟩ := QuotedFormula.exists_of_mem_conditions htext
    exact ⟨_, c.split_display⟩
  · obtain ⟨c, rfl⟩ := QuotedFormula.exists_of_mem_conditions htext
    rw [c.count_display]

/-- Two texts that look like parts of a rule, and the empty one. -/
theorem parse_quoted_hostile :
    let a : QuotedCondition := ⟨"a", .equal, "x) OR (1 = 1 AND b >= 2", by decide, by decide,
      by rintro (_ | _) <;> decide, by decide, by decide⟩
    let b : QuotedCondition := ⟨"b_2", .notEqual, "30", by decide, by decide,
      by rintro (_ | _) <;> decide, by decide, by decide⟩
    let c : QuotedCondition := ⟨"ORDER", .lessEqual, "", by decide, by decide,
      by rintro (_ | _) <;> decide, by decide, by decide⟩
    let t : QuotedFormula := .join .and (.join .or (.leaf a) (.leaf b)) (.leaf c)
    t.formula.depth ≤ Engine.default.maxDepth ∧
      Engine.default.parse "((a = 'x) OR (1 = 1 AND b >= 2' OR b_2 != '30') AND ORDER <= '')" =
        .ok (.ofFormula t.formula) ∧
      ∀ ctx, (Rule.ofFormula t.formula).evaluate ctx =
        ((a.holds ctx || b.holds ctx) && c.holds ctx) := by
  intro a b c t
  have hdepth : t.formula.depth ≤ Engine.default.maxDepth := by decide
  have hdisplay : (Rule.ofFormula t.formula).display =
      "((a = 'x) OR (1 = 1 AND b >= 2' OR b_2 != '30') AND ORDER <= '')" := by decide
  obtain ⟨hparse, hevaluate⟩ := parse_quoted .default t hdepth
  exact ⟨hdepth, hdisplay ▸ hparse, hevaluate⟩

end Engine
end Verdict
