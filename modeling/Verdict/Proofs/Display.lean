import Verdict.Proofs.Combination
/-
Displayed formulas, read again.

A formula is displayed as a sentence of the grammar (`Formula.derivation`), and its
conditions stand in it between other characters than before.  A condition that closes its
quotes is cut out again as it was put in (`Formula.ofChars_write`).  One that leaves a quote
open absorbs the parenthesis or the keyword behind it
(`Formula.not_prefix_of_not_quotesClosed`), and then another formula is read, or none.

So a formula is read again from its display if and only if it could have been read in the
first place, and its conditions close their quotes wherever anything stands beside them
(`Engine.parse_display_eq_ok_iff`).
-/
namespace Verdict

open Rule (Token Derivation)
open Rule.Token (ofChars ofText operands isWordEdge)
open Text (Blank)

namespace Formula

/-- Every condition closes the quotes that it opens. -/
def QuotesClosed (f : Formula) : Prop :=
  ∀ text ∈ f.conditions, text.toList.count '\'' % 2 = 0

/-- The derivation of the displayed formula. -/
def derivation : Formula → Derivation .factor
  | leaf text => .operand text
  | join .and left right => .group (.conjunction (.and (.factor left.derivation) right.derivation))
  | join .or left right => .group (.or (.conjunction (.factor left.derivation))
      (.factor right.derivation))

lemma tree_derivation (f : Formula) : f.derivation.tree = f := by
  induction f with
  | leaf text => rfl
  | join op left right ihl ihr => cases op <;> simp [derivation, Derivation.tree, ihl, ihr]

lemma tokens_derivation_join (op : Connective) (left right : Formula) :
    (join op left right).derivation.tokens =
      .opening :: (left.derivation.tokens ++ .connective op :: right.derivation.tokens) ++
        [.closing] := by
  cases op <;> rfl

lemma operands_derivation (f : Formula) : operands f.derivation.tokens = f.conditions := by
  induction f with
  | leaf text => rfl
  | join op left right ihl ihr => simp [tokens_derivation_join, ihl, ihr, conditions]

lemma write_join (op : Connective) (left right : Formula) (rest : List Char) :
    (join op left right).write rest =
      '(' :: (left.write [] ++ ' ' :: op.keyword.toList ++ ' ' :: right.write (')' :: rest)) := by
  rw [write, write_eq_append left, List.append_assoc]

lemma forall_conditions_join {op : Connective} {left right : Formula} {P : String → Prop} :
    (∀ text ∈ (join op left right).conditions, P text) ↔
      (∀ text ∈ left.conditions, P text) ∧ ∀ text ∈ right.conditions, P text := by
  simp only [conditions, List.mem_append, or_imp, forall_and]

lemma quotesClosed_join {op : Connective} {left right : Formula} :
    (join op left right).QuotesClosed ↔ left.QuotesClosed ∧ right.QuotesClosed :=
  forall_conditions_join

lemma QuotesClosed.count_write {f : Formula} (h : f.QuotesClosed) :
    (f.write []).count '\'' % 2 = 0 := by
  induction f with
  | leaf text => simpa [write] using h text (by simp [conditions])
  | join op left right ihl ihr =>
    obtain ⟨hl, hr⟩ := quotesClosed_join.mp h
    have hkeyword : op.keyword.toList.count '\'' = 0 := by cases op <;> decide
    have hleft := ihl hl
    have hright := ihr hr
    rw [write_join, write_eq_append right]
    simp only [List.count_cons, List.count_append, List.count_nil, hkeyword]
    simp
    omega

/-- The tokens of a displayed formula are those of its derivation. -/
theorem ofChars_write {f : Formula} (hleaves : ∀ text ∈ f.conditions, ofText text = [.operand text])
    (hquotes : f.QuotesClosed) : ofChars (f.write []) = f.derivation.tokens := by
  induction f with
  | leaf text =>
    rw [write, List.append_nil, ← Token.ofText_eq_ofChars]
    exact hleaves text (by simp [conditions])
  | join op left right ihl ihr =>
    obtain ⟨hl, hr⟩ := quotesClosed_join.mp hquotes
    obtain ⟨hleavesl, hleavesr⟩ := forall_conditions_join.mp hleaves
    have hleft := ihl hleavesl hl
    have hright := ihr hleavesr hr
    rw [write_join, write_eq_append right, Token.ofChars_opening,
      Token.ofChars_connective hl.count_write, Token.ofChars_closing hr.count_write, hleft, hright,
      tokens_derivation_join]
    simp
    rfl

/-- A displayed formula does not give its conditions back, if one of them leaves a quote
open and anything is displayed behind it. -/
theorem not_prefix_of_not_quotesClosed {f : Formula} (post : List Char)
    (hleaves : ∀ text ∈ f.conditions, ofText text = [.operand text])
    (hopen : ¬ f.QuotesClosed)
    (hpost : (∀ text, f ≠ .leaf text) ∨ (¬ Blank post ∧ isWordEdge post.head? = true)) :
    ¬ f.conditions <+: operands (ofChars (f.write post)) := by
  induction f generalizing post with
  | leaf text =>
    obtain ⟨hblank, hedge⟩ := hpost.resolve_left fun h => h text rfl
    have hodd : text.toList.count '\'' % 2 = 1 := by
      have hne : ¬ text.toList.count '\'' % 2 = 0 := by simpa [QuotesClosed, conditions] using hopen
      omega
    obtain ⟨text', ts, htokens, hne⟩ :=
      Token.ofText_absorbs (hleaves text (by simp [conditions])) hodd hblank hedge
    rw [write, htokens, Token.operands_operand, conditions, List.cons_prefix_cons]
    exact fun h => hne h.1.symm
  | join op left right ihl ihr =>
    intro hfirst
    obtain ⟨hleavesl, hleavesr⟩ := forall_conditions_join.mp hleaves
    rw [write_join, Token.ofChars_opening, Token.operands_opening, conditions] at hfirst
    -- the first condition that leaves a quote open is the one that gets lost
    by_cases hl : left.QuotesClosed
    · have hr : ¬ right.QuotesClosed := fun hr => hopen (quotesClosed_join.mpr ⟨hl, hr⟩)
      rw [Token.ofChars_connective hl.count_write, Token.operands_append,
        ofChars_write hleavesl hl, operands_derivation, Token.operands_connective,
        List.prefix_append_right_inj] at hfirst
      refine ihr (')' :: post) hleavesr hr (Or.inr ⟨fun hblank => ?_, rfl⟩) hfirst
      exact absurd (hblank ')' List.mem_cons_self) (by decide)
    · refine ihl (' ' :: op.keyword.toList ++ ' ' :: right.write (')' :: post)) hleavesl hl
        (Or.inr ⟨fun hblank => ?_, rfl⟩) ?_
      · cases op with
        | and => exact absurd (hblank 'A' (by simp [Connective.keyword])) (by decide)
        | or => exact absurd (hblank 'O' (by simp [Connective.keyword])) (by decide)
      · rw [write_eq_append, ← List.append_assoc]
        exact (List.prefix_append _ _).trans hfirst

end Formula

namespace Engine

lemma parse_display {e : Engine} {f : Formula} (h : f.Readable e.maxDepth)
    (hquotes : (∃ text, f = .leaf text) ∨ f.QuotesClosed) :
    e.parse f.display = .ok (.ofFormula f) := by
  have htokens : ofText f.display = (Derivation.conjunction (.factor f.derivation)).tokens := by
    rw [Token.ofText_eq_ofChars, Formula.display, String.toList_ofList]
    rcases hquotes with ⟨text, rfl⟩ | hquotes
    · rw [Formula.write, List.append_nil, ← Token.ofText_eq_ofChars]
      exact h.ofText_eq text (by simp [Formula.conditions])
    · exact Formula.ofChars_write h.ofText_eq hquotes
  have htree : (Derivation.conjunction (.factor f.derivation)).tree = f := f.tree_derivation
  rw [parse_eq, htokens, Rule.assemble_derivation e.one_le_maxDepth, htree, if_pos h.depth_le]
  · rfl
  · intro text htext
    exact h.split_ok text (f.operands_derivation ▸ htext)

lemma quotesClosed_of_parse_display {e : Engine} {f : Formula} (h : f.Readable e.maxDepth)
    (hparse : e.parse f.display = .ok (.ofFormula f)) :
    (∃ text, f = .leaf text) ∨ f.QuotesClosed := by
  by_contra hnot
  rw [not_or, not_exists] at hnot
  refine Formula.not_prefix_of_not_quotesClosed [] h.ofText_eq hnot.2 (Or.inl hnot.1) ?_
  have hfirst := conditions_of_parse hparse
  rwa [Token.ofText_eq_ofChars, Formula.display, String.toList_ofList] at hfirst

/-- **Which formulas can be displayed and read again.**  A formula, with any texts as its
conditions, is read again from its display if and only if it keeps to the limit, each of its
conditions can be split and is a single token when it stands alone, and it is a single
condition or all its conditions close their quotes. -/
theorem parse_display_eq_ok_iff (e : Engine) (f : Formula) :
    e.parse (Rule.ofFormula f).display = .ok (.ofFormula f) ↔
      f.depth ≤ e.maxDepth ∧
      (∀ text ∈ f.conditions, ofText text = [.operand text] ∧
        ∃ parts, Condition.split text = .ok parts) ∧
      ((∃ text, f = .leaf text) ∨
        ∀ text ∈ f.conditions, text.toList.count '\'' % 2 = 0) := by
  constructor
  · intro h
    have hreadable := readable_of_parse h
    exact ⟨hreadable.depth_le,
      fun text htext => ⟨hreadable.ofText_eq text htext, hreadable.split_ok text htext⟩,
      quotesClosed_of_parse_display hreadable h⟩
  · rintro ⟨hdepth, hleaves, hquotes⟩
    have hreadable : f.Readable e.maxDepth :=
      ⟨hdepth, fun text htext => (hleaves text htext).1, fun text htext => (hleaves text htext).2⟩
    exact parse_display hreadable hquotes

/-- **When a displayed rule can be read again.**  A rule that was read or combined, and is
not empty, is read again from its display if and only if it is a single condition or all its
conditions close their quotes. -/
theorem parse_display_iff (e : Engine) {t : Rule}
    (ht : (∃ text, e.parse text = .ok t) ∨ ∃ texts, e.combine texts = .ok t) (hne : t ≠ .empty) :
    e.parse t.display = .ok t ↔
      (∃ condition, t = .ofFormula (.leaf condition)) ∨
        ∀ condition ∈ t.conditions, condition.toList.count '\'' % 2 = 0 := by
  obtain ⟨_ | f⟩ := t
  · exact absurd rfl hne
  · have hreadable : f.Readable e.maxDepth := by
      rcases ht with ⟨text, h⟩ | ⟨texts, h⟩
      · exact readable_of_parse h
      · exact readable_of_combine h
    have hleaf : (∃ condition, (⟨some f⟩ : Rule) = .ofFormula (.leaf condition)) ↔
        ∃ text, f = .leaf text := by
      simp [Rule.ofFormula]
    rw [hleaf]
    exact ⟨quotesClosed_of_parse_display hreadable, parse_display hreadable⟩

/-- A keyword and a parenthesis between quotes do not stand in the way. -/
theorem parse_display_quoted :
    Engine.default.parse "(a = 'x AND (y' OR b = 2)" =
      .ok (.ofFormula (.join .or (.leaf "a = 'x AND (y'") (.leaf "b = 2"))) :=
  (parse_display_iff .default (t := .ofFormula (.join .or (.leaf "a = 'x AND (y'") (.leaf "b = 2")))
    (Or.inl ⟨"a = 'x AND (y' OR b = 2", by decide⟩) (by decide)).mpr (Or.inr (by decide))

/-- The last condition of a rule may leave a quote open, and the parenthesis that is
displayed behind it is then quoted. -/
theorem parse_display_open_quote :
    Engine.default.parse "a = 1 AND b = 'x" =
        .ok (.ofFormula (.join .and (.leaf "a = 1") (.leaf "b = 'x"))) ∧
      (Rule.ofFormula (.join .and (.leaf "a = 1") (.leaf "b = 'x"))).display =
        "(a = 1 AND b = 'x)" ∧
      Engine.default.parse "(a = 1 AND b = 'x)" =
        .error (.unbalancedParentheses "(a = 1 AND b = 'x)") := by
  decide

/-- Two open quotes close each other, and what was two conditions is read as one. -/
example :
    Engine.default.combine ["b = 'x", "c = 'y"] =
        .ok (.ofFormula (.join .and (.leaf "b = 'x") (.leaf "c = 'y"))) ∧
      Engine.default.parse "(b = 'x AND c = 'y)" = .ok (.ofFormula (.leaf "b = 'x AND c = 'y")) := by
  decide

end Engine
end Verdict
