import Verdict.Proofs.Reading
import Verdict.Proofs.Rule.Group
/-
Rules put together as text.

Two rules can be joined by writing each between parentheses, with a connective between them.
What is read then is the join of the two rules, if nothing in the second one grasps for the
first (`Engine.parse_joined_iff`).  A connective at the end of the second rule does: alone it is
discarded, but here it finds the two formulas that were meant for the connective in front of it
(`Engine.parse_joined_trailing`).

A single rule between parentheses is the rule itself (`Engine.parse_enclosed`).  With nothing in
front of the group there is nothing to grasp for, whatever stands in it.
-/
namespace Verdict

open Rule (Token assemble)
open Rule.Token (ofText ofChars opening closing connective)
open Rule.Assembly (SelfContained Writes twoGroups)

namespace Engine

/-- The text is read as the formula `f`, and no condition in it is ignored. -/
structure ReadsAll (e : Engine) (text : String) (f : Formula) : Prop where
  parse_eq : e.parse text = .ok (.ofFormula f)
  not_ignored : ¬ ∃ event ∈ (e.read text).events, event.IsIgnored

/-- The two texts between parentheses, with `op` between them. -/
def joined (op : Connective) (left right : String) : String :=
  "(" ++ left ++ ") " ++ op.keyword ++ " (" ++ right ++ ")"

lemma ofText_joined (op : Connective) {left right : String}
    (hleft : left.toList.count '\'' % 2 = 0) (hright : right.toList.count '\'' % 2 = 0) :
    ofText (joined op left right) = twoGroups op (ofText left) (ofText right) := by
  have hchars : (joined op left right).toList =
      '(' :: (left.toList ++ ')' :: (' ' :: op.keyword.toList ++
        ' ' :: ('(' :: (right.toList ++ ')' :: [])))) := by
    simp [joined, String.toList_append]
  have hopened : ofChars ('(' :: (right.toList ++ ')' :: [])) =
      opening :: (ofText right ++ closing :: ofChars []) := by
    rw [Token.ofChars_opening, Token.ofChars_closing hright, Token.ofText_eq_ofChars]
  have hconnective := Token.ofChars_connective (a := []) rfl op ('(' :: (right.toList ++ ')' :: []))
  rw [List.nil_append] at hconnective
  rw [Token.ofText_eq_ofChars, hchars, Token.ofChars_opening, Token.ofChars_closing hleft,
    hconnective, hopened, Token.ofText_eq_ofChars left]
  rfl

lemma parse_eq_ok_iff {e : Engine} {text : String} {f : Formula} :
    e.parse text = .ok (.ofFormula f) ↔ Writes e.maxDepth (ofText text) f := by
  constructor
  · exact exists_built_of_parse
  · rintro ⟨b, s, hb, hs, rfl⟩
    rw [Engine.parse_eq, hb]
    simp [firstOf, hs]

/-- Of a text without ignored conditions a single formula is built. -/
lemma ReadsAll.assemble_eq {e : Engine} {text : String} {f : Formula} (h : e.ReadsAll text f) :
    ∃ discarded, assemble e.maxDepth (ofText text) = .ok ⟨[⟨f, f.depth⟩], discarded⟩ := by
  obtain ⟨⟨formulas, discarded⟩, s, hb, hs, rfl⟩ := exists_built_of_parse h.parse_eq
  obtain ⟨rest, rfl⟩ : ∃ rest, formulas = rest ++ [s] := List.getLast?_eq_some_iff.mp hs
  have hnone := h.not_ignored
  rw [Reading.exists_isIgnored_iff, read_of_assemble hb, not_not] at hnone
  obtain rfl : rest = [] := by simpa using hnone
  have hdepth : s.depth = s.formula.depth :=
    (Rule.Assembly.run_sized e.one_le_maxDepth hb s (by simp)).1
  refine ⟨discarded, ?_⟩
  rw [← hdepth]
  exact hb

/-- **Rules put together as text.**  Where two rules are read without ignoring a condition, their
texts between parentheses, joined by `op`, are read as the join of the two formulas if and only
if the second text is self-contained under `op`. -/
theorem parse_joined_iff (e : Engine) (op : Connective) {left right : String} {f g : Formula}
    (hf : e.ReadsAll left f) (hg : e.ReadsAll right g)
    (hleft : left.toList.count '\'' % 2 = 0) (hright : right.toList.count '\'' % 2 = 0)
    (hdepth : 1 + max f.depth g.depth ≤ e.maxDepth) :
    e.parse (joined op left right) = .ok (.ofFormula (.join op f g)) ↔
      SelfContained e.maxDepth op (ofText right) := by
  obtain ⟨d₁, h₁⟩ := hf.assemble_eq
  obtain ⟨d₂, h₂⟩ := hg.assemble_eq
  rw [parse_eq_ok_iff, ofText_joined op hleft hright]
  exact Rule.Assembly.writes_twoGroups_iff h₁ h₂ hdepth

/-- The connective at the end of a rule does no harm where it is the one that joins, nor at the
end of the first rule. -/
theorem parse_joined_stray :
    Engine.default.ReadsAll "a = 1 OR" (.leaf "a = 1") ∧
      Engine.default.ReadsAll "b = 2 OR" (.leaf "b = 2") ∧
      SelfContained Engine.default.maxDepth .or (ofText "b = 2 OR") ∧
      Engine.default.ReadsAll "b = 2 OR c = 3" (.join .or (.leaf "b = 2") (.leaf "c = 3")) ∧
      Engine.default.parse (joined .and "a = 1 OR" "b = 2 OR c = 3") =
        .ok (.ofFormula
          (.join .and (.leaf "a = 1") (.join .or (.leaf "b = 2") (.leaf "c = 3")))) := by
  have hfirst : Engine.default.ReadsAll "a = 1 OR" (.leaf "a = 1") := ⟨by decide, by decide⟩
  have hstray : Engine.default.ReadsAll "b = 2 OR" (.leaf "b = 2") := ⟨by decide, by decide⟩
  have hsecond : Engine.default.ReadsAll "b = 2 OR c = 3"
      (.join .or (.leaf "b = 2") (.leaf "c = 3")) := ⟨by decide, by decide⟩
  refine ⟨hfirst, hstray, ?_, hsecond, ?_⟩
  · have hparse : Engine.default.parse (joined .or "a = 1 OR" "b = 2 OR") =
        .ok (.ofFormula (.join .or (.leaf "a = 1") (.leaf "b = 2"))) := by decide
    exact (parse_joined_iff .default .or hfirst hstray (by decide) (by decide) (by decide)).mp
      hparse
  · have htokens : assemble Engine.default.maxDepth (ofText "b = 2 OR c = 3") =
        .ok ⟨[⟨.join .or (.leaf "b = 2") (.leaf "c = 3"), 2⟩], []⟩ := by decide
    exact (parse_joined_iff .default .and hfirst hsecond (by decide) (by decide) (by decide)).mpr
      (Rule.Assembly.selfContained_of_discarded_eq_nil htokens rfl)

/-- Another connective at the end of the second rule takes the first one for its left side. -/
theorem parse_joined_trailing :
    Engine.default.ReadsAll "a = 1" (.leaf "a = 1") ∧
      Engine.default.ReadsAll "b = 2 AND" (.leaf "b = 2") ∧
      "a = 1".toList.count '\'' % 2 = 0 ∧ "b = 2 AND".toList.count '\'' % 2 = 0 ∧
      1 + max (Formula.leaf "a = 1").depth (Formula.leaf "b = 2").depth ≤
        Engine.default.maxDepth ∧
      Engine.default.parse (joined .or "a = 1" "b = 2 AND") =
        .ok (.ofFormula (.join .and (.leaf "a = 1") (.leaf "b = 2"))) ∧
      Engine.default.parse (joined .or "a = 1" "b = 2 AND") ≠
        .ok (.ofFormula (.join .or (.leaf "a = 1") (.leaf "b = 2"))) := by
  refine ⟨⟨by decide, by decide⟩, ⟨by decide, by decide⟩, ?_⟩
  decide

/-- So does a doubled one, and the connective between the two rules is discarded. -/
example :
    joined .or "a = 1" "b = 2 AND AND c = 3" = "(a = 1) OR (b = 2 AND AND c = 3)" ∧
      Engine.default.parse "(a = 1) OR (b = 2 AND AND c = 3)" =
        .ok (.ofFormula
          (.join .and (.join .and (.leaf "a = 1") (.leaf "b = 2")) (.leaf "c = 3"))) := by
  decide

/-! ## One rule between parentheses -/

/-- The text between parentheses. -/
def enclosed (text : String) : String := "(" ++ text ++ ")"

lemma ofText_enclosed {text : String} (h : text.toList.count '\'' % 2 = 0) :
    ofText (enclosed text) = opening :: (ofText text ++ [closing]) := by
  have hchars : (enclosed text).toList = '(' :: (text.toList ++ ')' :: []) := by
    simp [enclosed, String.toList_append]
  rw [Token.ofText_eq_ofChars, hchars, Token.ofChars_opening, Token.ofChars_closing h,
    Token.ofText_eq_ofChars]
  rfl

/-- The error that stops a reading is about the text only where a parenthesis has no partner. -/
lemma errorOf_eq_of_ne {e : Engine} {fault : Rule.Fault} (h : fault ≠ .unbalancedParentheses)
    (text text' : String) : e.errorOf text fault = e.errorOf text' fault := by
  cases fault with
  | unbalancedParentheses => exact absurd rfl h
  | _ => rfl

lemma firstOf_eq_of_ne {e : Engine} {text : String} {formulas : List Rule.Sized}
    (h : e.firstOf text formulas ≠ .error (.emptyExpression text)) (text' : String) :
    e.firstOf text formulas = e.firstOf text' formulas := by
  cases hlast : formulas.getLast? with
  | some sized => simp [firstOf, hlast]
  | none =>
    cases hpolicy : e.emptyPolicy with
    | lenient => simp [firstOf, hlast, hpolicy]
    | reject => simp [firstOf, hlast, hpolicy] at h

/-- **A rule between parentheses.**  A text that closes its quotes is read between parentheses as
it is read alone, whatever is wrong with it: as the same rule, with the same connectives
discarded and as many formulas ignored, or with the same error.  The exceptions are the two
errors that quote the text, a parenthesis without partner and a text without conditions. -/
theorem parse_enclosed (e : Engine) (text : String) (hquotes : text.toList.count '\'' % 2 = 0)
    (hbalanced : e.parse text ≠ .error (.unbalancedParentheses text))
    (hnonempty : e.parse text ≠ .error (.emptyExpression text)) :
    e.parse (enclosed text) = e.parse text ∧
      (e.read (enclosed text)).discarded = (e.read text).discarded ∧
      (e.read (enclosed text)).dropped = (e.read text).dropped := by
  have hsame : assemble e.maxDepth (ofText (enclosed text)) =
      assemble e.maxDepth (ofText text) := by
    rw [ofText_enclosed hquotes]
    refine (Rule.Assembly.assemble_group _ _).resolve_right ?_
    rintro ⟨discarded, hstop⟩
    rw [parse_eq, hstop] at hbalanced
    exact hbalanced rfl
  rw [parse_eq] at hbalanced hnonempty
  rw [parse_eq, parse_eq, read, read, hsame]
  cases hrun : assemble e.maxDepth (ofText text) with
  | error stop =>
    rw [hrun] at hbalanced
    have hfault : stop.fault ≠ .unbalancedParentheses := fun hfault =>
      hbalanced (congrArg (Except.error <| e.errorOf text ·) hfault)
    exact ⟨congrArg Except.error (errorOf_eq_of_ne hfault _ _), rfl, rfl⟩
  | ok built =>
    rw [hrun] at hnonempty
    exact ⟨(firstOf_eq_of_ne hnonempty _).symm, rfl, rfl⟩

/-- A stray connective, two groups side by side and a parenthesis between quotes; and a condition
that is none. -/
theorem parse_enclosed_stray :
    ("(OR a = 1) (b = 'x)')".toList.count '\'' % 2 = 0 ∧
      Engine.default.parse "(OR a = 1) (b = 'x)')" = .ok (.ofFormula (.leaf "a = 1")) ∧
      Engine.default.parse "((OR a = 1) (b = 'x)'))" = .ok (.ofFormula (.leaf "a = 1")) ∧
      (Engine.default.read "((OR a = 1) (b = 'x)'))").discarded = [.or] ∧
      (Engine.default.read "((OR a = 1) (b = 'x)'))").dropped = 1) ∧
    "a = 1 AND b".toList.count '\'' % 2 = 0 ∧
      Engine.default.parse "(a = 1 AND b)" =
        .error (.malformedCondition (.invalidFormat "b")) := by
  have hquotes : "(OR a = 1) (b = 'x)')".toList.count '\'' % 2 = 0 := by decide
  have hquotes' : "a = 1 AND b".toList.count '\'' % 2 = 0 := by decide
  have hparse : Engine.default.parse "(OR a = 1) (b = 'x)')" =
      .ok (.ofFormula (.leaf "a = 1")) := by decide
  have hfault : Engine.default.parse "a = 1 AND b" =
      .error (.malformedCondition (.invalidFormat "b")) := by decide
  obtain ⟨hsame, hdiscarded, hdropped⟩ := parse_enclosed .default "(OR a = 1) (b = 'x)')"
    hquotes (by simp [hparse]) (by simp [hparse])
  obtain ⟨hsame', -⟩ := parse_enclosed .default "a = 1 AND b" hquotes' (by simp [hfault])
    (by simp [hfault])
  exact ⟨⟨hquotes, hparse, hsame.trans hparse, hdiscarded.trans (by decide),
    hdropped.trans (by decide)⟩, hquotes', hsame'.trans hfault⟩

/-- Parentheses around it all can be the partners that are missing. -/
example :
    Engine.default.parse "a = 1) OR (b = 2" =
        .error (.unbalancedParentheses "a = 1) OR (b = 2") ∧
      Engine.default.parse (enclosed "a = 1) OR (b = 2") =
        .ok (.ofFormula (.join .or (.leaf "a = 1") (.leaf "b = 2"))) := by
  decide

end Engine
end Verdict
