import Verdict.Event
import Verdict.Rule.Assembly
/-
Engines: the settings under which rules are read and combined.

`Engine.read` takes the text of a rule all the way to a rule, keeping what
happened on the way; `Engine.parse` is its outcome.  Where formulas stand side by
side, the first one is the rule and the others are ignored.
-/
namespace Verdict

/-- What becomes of a rule without conditions. -/
inductive EmptyPolicy where
  | lenient
  | reject
deriving DecidableEq, Repr

/-- Where the connectives are counted that decide how rules are combined: in the
texts of the rules, or in their formulas. -/
inductive Counting where
  | textual
  | parsed
deriving DecidableEq, Repr

/-- The settings under which rules are read and combined. -/
structure Engine where
  emptyPolicy : EmptyPolicy := .lenient
  counting : Counting := .textual
  /-- The number of levels that a formula may have. -/
  maxDepth : Nat := 1024
  /-- A single condition is never too deep. -/
  one_le_maxDepth : 1 ≤ maxDepth := by decide
deriving DecidableEq, Repr

/-- Why a text is no rule, or why rules do not combine. -/
inductive RuleError where
  | malformedCondition (error : ConditionError)
  | unbalancedParentheses (rule : String)
  | emptyExpression (rule : String)
  | tooDeep (limit : Nat)
deriving DecidableEq, Repr

/-- The wording of an error. -/
def RuleError.message : RuleError → String
  | malformedCondition error => error.message
  | unbalancedParentheses rule => "unbalanced parentheses in rule \"" ++ rule ++ "\""
  | emptyExpression rule => "rule \"" ++ rule ++ "\" contains no conditions"
  | tooDeep limit => "rule tree is deeper than the limit of " ++ toString limit ++ " levels"

/-- What became of the text of a rule. -/
structure Reading where
  text : String
  tokens : List Rule.Token
  /-- Connectives that joined nothing, in the order in which they were given up. -/
  discarded : List Connective
  /-- The number of formulas after the first. -/
  dropped : Nat
  outcome : Except RuleError Rule

/-- What is reported of a reading. -/
def Reading.events (r : Reading) : List Event :=
  .tokenized r.text r.tokens :: r.discarded.map .connectiveDiscarded
    ++ if r.dropped = 0 then [] else [.conditionsIgnored r.text r.dropped]

namespace Engine

/-- The usual settings. -/
def default : Engine := {}

/-- `e` with another limit for the number of levels, which is at least one. -/
def withMaxDepth (e : Engine) (limit : Nat) : Engine :=
  { e with maxDepth := max limit 1, one_le_maxDepth := Nat.le_max_right .. }

/-- The error that stops the reading of `text`. -/
def errorOf (e : Engine) (text : String) : Rule.Fault → RuleError
  | .malformedCondition error => .malformedCondition error
  | .unbalancedParentheses => .unbalancedParentheses text
  | .tooDeep => .tooDeep e.maxDepth

/-- The rule of finished formulas, newest first: the oldest, or nothing if the
engine is lenient about it. -/
def firstOf (e : Engine) (text : String) (formulas : List Rule.Sized) : Except RuleError Rule :=
  match formulas.getLast?, e.emptyPolicy with
  | some sized, _ => .ok (.ofFormula sized.formula)
  | none, .lenient => .ok .empty
  | none, .reject => .error (.emptyExpression text)

/-- Reads the text of a rule. -/
def read (e : Engine) (text : String) : Reading :=
  let tokens := Rule.Token.ofText text
  match Rule.assemble e.maxDepth tokens with
  | .error stop => ⟨text, tokens, stop.discarded.reverse, 0, .error (e.errorOf text stop.fault)⟩
  | .ok built =>
    ⟨text, tokens, built.discarded.reverse, built.formulas.length - 1,
      e.firstOf text built.formulas⟩

/-- The rule that `text` writes. -/
def parse (e : Engine) (text : String) : Except RuleError Rule :=
  (e.read text).outcome

end Engine
end Verdict
