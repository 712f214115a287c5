import Verdict.Context
import Verdict.Event
/-
Evaluating rules in a context.

A condition compares what the context knows of its attribute with its value.  An
attribute that the context does not know differs from every value and satisfies
nothing else.  A leaf that is no condition is false, and so is the empty rule.

`Rule.evaluate` is the truth of a rule; `Rule.report` also tells the outcome of
every condition.  Neither stops early: each looks at every leaf from left to right,
so that each leaf which is no condition is reported.
-/
namespace Verdict

/-- Whether the condition holds in `ctx`. -/
def Condition.holds (c : Condition) (ctx : Context) : Bool :=
  match ctx.get? c.name with
  | some value => value.compareWith c.comparator c.value
  | none => c.comparator == .notEqual

/-- Whether the condition that `text` writes holds in `ctx`. -/
def Condition.outcome (ctx : Context) (text : String) : Except ConditionError Bool :=
  (Condition.parse text).map (·.holds ctx)

/-- Whether `text` is a condition that holds. -/
def Condition.holdsAt (ctx : Context) (text : String) : Bool :=
  match Condition.outcome ctx text with
  | .ok held => held
  | .error _ => false

/-- What is reported of evaluating the leaf `text`. -/
def Condition.events (ctx : Context) (text : String) : List Event :=
  match Condition.outcome ctx text with
  | .ok _ => []
  | .error error => [.unparsableCondition text error]

/-- The truth of a rule with that of its conditions. -/
structure Report where
  result : Bool
  /-- The text of every leaf and whether it held, from left to right. -/
  outcomes : List (String × Bool)
  /-- What was reported of the leaves. -/
  warnings : List Event
deriving DecidableEq, Repr

namespace Report

/-- The report of a rule without leaves. -/
def empty : Report := ⟨false, [], []⟩

/-- The report of two formulas joined by `op`. -/
def join (op : Connective) (left right : Report) : Report :=
  ⟨op.apply left.result right.result, left.outcomes ++ right.outcomes,
    left.warnings ++ right.warnings⟩

/-- The texts of the leaves that held. -/
def satisfied (r : Report) : List String :=
  (r.outcomes.filter (·.2)).map (·.1)

/-- The result, and the leaves that held. -/
def display (r : Report) : String :=
  "result: " ++ toString r.result ++ ", satisfied: [" ++ ", ".intercalate r.satisfied ++ "]"

/-- What is reported of an evaluation with a report. -/
def events (r : Report) : List Event :=
  r.warnings ++ [.evaluated r.result r.outcomes.length]

end Report

namespace Formula

/-- The truth of the formula in `ctx`. -/
def evaluate (ctx : Context) : Formula → Bool
  | leaf text => Condition.holdsAt ctx text
  | join op left right => op.apply (left.evaluate ctx) (right.evaluate ctx)

/-- What is reported of evaluating the formula in `ctx`. -/
def evaluationEvents (ctx : Context) : Formula → List Event
  | leaf text => Condition.events ctx text
  | join _ left right => left.evaluationEvents ctx ++ right.evaluationEvents ctx

/-- The truth of the formula and of each of its conditions in `ctx`. -/
def report (ctx : Context) : Formula → Report
  | leaf text =>
    match Condition.outcome ctx text with
    | .ok held => ⟨held, [(text, held)], []⟩
    | .error error => ⟨false, [(text, false)], [.unparsableCondition text error]⟩
  | join op left right => (left.report ctx).join op (right.report ctx)

end Formula

namespace Rule

/-- The truth of the rule in `ctx`. -/
def evaluate (r : Rule) (ctx : Context) : Bool := r.formula?.elim false (Formula.evaluate ctx)

/-- What is reported of evaluating the rule in `ctx`. -/
def evaluationEvents (r : Rule) (ctx : Context) : List Event :=
  r.formula?.elim [] (Formula.evaluationEvents ctx)

/-- The truth of the rule and of each of its conditions in `ctx`. -/
def report (r : Rule) (ctx : Context) : Report := r.formula?.elim .empty (Formula.report ctx)

end Rule
end Verdict
