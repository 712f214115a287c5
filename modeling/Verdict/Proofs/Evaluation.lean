import Mathlib.Data.List.Basic
import Verdict.Evaluation
/-
What is reported of an evaluation.

An evaluation looks at every leaf from left to right, whatever the truth of the leaves is.  So
the outcomes in a report, and the warnings on the way to it, are those of the conditions of the
rule in their order, and they are the same for a plain evaluation.  Nothing else goes into the
result, which is what AND and OR make of these outcomes (`Rule.report_agrees`).
-/
namespace Verdict

namespace Condition

/-- The warning that the leaf `text` is no condition. -/
def warning? (text : String) : Option Event :=
  match parse text with
  | .ok _ => none
  | .error error => some (.unparsableCondition text error)

lemma events_eq (ctx : Context) (text : String) : events ctx text = (warning? text).toList := by
  rw [events, outcome, warning?]
  cases parse text <;> rfl

lemma holdsAt_of_parse {text : String} {c : Condition} (h : parse text = .ok c) (ctx : Context) :
    holdsAt ctx text = c.holds ctx := by
  rw [holdsAt, outcome, h]
  rfl

lemma events_of_parse {text : String} {c : Condition} (h : parse text = .ok c) (ctx : Context) :
    events ctx text = [] := by
  rw [events, outcome, h]
  rfl

end Condition

namespace Formula

/-- The truth of the formula if its leaves, from left to right, are as true as `flags`: that of a
join by AND if both sides are true, and that of a join by OR if one of them is. -/
def truthOf : Formula → List Bool → Bool
  | leaf _, flags => flags.headD false
  | join .and left right, flags =>
    left.truthOf (flags.take left.conditions.length) &&
      right.truthOf (flags.drop left.conditions.length)
  | join .or left right, flags =>
    left.truthOf (flags.take left.conditions.length) ||
      right.truthOf (flags.drop left.conditions.length)

lemma truthOf_join (op : Connective) (left right : Formula) (flags : List Bool) :
    (join op left right).truthOf flags =
      op.apply (left.truthOf (flags.take left.conditions.length))
        (right.truthOf (flags.drop left.conditions.length)) := by
  cases op <;> rfl

variable (f : Formula) (ctx : Context)

lemma truthOf_map_holdsAt :
    f.truthOf (f.conditions.map (Condition.holdsAt ctx)) = f.evaluate ctx := by
  induction f with
  | leaf text => rfl
  | join op left right ihl ihr =>
    have hlength : (left.conditions.map (Condition.holdsAt ctx)).length = left.conditions.length :=
      List.length_map _
    rw [truthOf_join, conditions, List.map_append, List.take_left' hlength,
      List.drop_left' hlength, ihl, ihr, evaluate]

lemma outcomes_report :
    (f.report ctx).outcomes = f.conditions.map fun text => (text, Condition.holdsAt ctx text) := by
  induction f with
  | leaf text =>
    rw [report, conditions, List.map_singleton, Condition.holdsAt]
    cases Condition.outcome ctx text <;> rfl
  | join op left right ihl ihr =>
    rw [report, Report.join, ihl, ihr, conditions, List.map_append]

lemma warnings_report :
    (f.report ctx).warnings = f.conditions.flatMap (Condition.events ctx) := by
  induction f with
  | leaf text =>
    rw [report, conditions, List.flatMap_singleton, Condition.events]
    cases Condition.outcome ctx text <;> rfl
  | join op left right ihl ihr =>
    rw [report, Report.join, ihl, ihr, conditions, List.flatMap_append]

lemma evaluationEvents_eq :
    f.evaluationEvents ctx = f.conditions.flatMap (Condition.events ctx) := by
  induction f with
  | leaf text => rw [evaluationEvents, conditions, List.flatMap_singleton]
  | join op left right ihl ihr =>
    rw [evaluationEvents, ihl, ihr, conditions, List.flatMap_append]

lemma result_report : (f.report ctx).result = f.evaluate ctx := by
  induction f with
  | leaf text =>
    rw [report, evaluate, Condition.holdsAt]
    cases Condition.outcome ctx text <;> rfl
  | join op left right ihl ihr => rw [report, Report.join, ihl, ihr, evaluate]

end Formula

namespace Rule

variable (r : Rule) (ctx : Context)

/-- The report of a rule has its conditions in order, each with its own outcome. -/
theorem outcomes_report :
    (r.report ctx).outcomes = r.conditions.map fun text => (text, Condition.holdsAt ctx text) := by
  obtain ⟨_ | f⟩ := r
  · rfl
  · exact f.outcomes_report ctx

theorem warnings_report :
    (r.report ctx).warnings = r.conditions.flatMap (Condition.events ctx) := by
  obtain ⟨_ | f⟩ := r
  · rfl
  · exact f.warnings_report ctx

/-- A plain evaluation warns of the same leaves. -/
theorem evaluationEvents_eq :
    r.evaluationEvents ctx = r.conditions.flatMap (Condition.events ctx) := by
  obtain ⟨_ | f⟩ := r
  · rfl
  · exact f.evaluationEvents_eq ctx

lemma evaluate_leaf (text : String) :
    (ofFormula (.leaf text)).evaluate ctx = Condition.holdsAt ctx text := by
  rw [evaluate, ofFormula, Option.elim_some, Formula.evaluate]

theorem result_report : (r.report ctx).result = r.evaluate ctx := by
  obtain ⟨_ | f⟩ := r
  · rfl
  · exact f.result_report ctx

/-- The truth of the rule if its leaves, from left to right, are as true as `flags`. -/
def truthOf (r : Rule) (flags : List Bool) : Bool := r.formula?.elim false (·.truthOf flags)

lemma truthOf_map_holdsAt :
    r.truthOf (r.conditions.map (Condition.holdsAt ctx)) = r.evaluate ctx := by
  obtain ⟨_ | f⟩ := r
  · rfl
  · exact f.truthOf_map_holdsAt ctx

/-- Each leaf that is no condition is warned of once. -/
lemma flatMap_events :
    r.conditions.flatMap (Condition.events ctx) = r.conditions.filterMap Condition.warning? := by
  rw [List.filterMap_eq_flatMap_toList]
  exact congrArg (r.conditions.flatMap ·) (funext (Condition.events_eq ctx))

/-- **The report agrees with the evaluation.**  It has the conditions in order, each with its
truth as a rule of its own.  Its result is the truth of the rule, and what AND and OR make of the
truths in the report; the conditions that it names as satisfied are the true ones.  With or without
a report, there is one warning for each leaf that is no condition, in their order. -/
theorem report_agrees :
    (r.report ctx).outcomes =
        r.conditions.map (fun text => (text, (ofFormula (.leaf text)).evaluate ctx)) ∧
      (r.report ctx).result = r.evaluate ctx ∧
      (r.report ctx).result = r.truthOf ((r.report ctx).outcomes.map Prod.snd) ∧
      (r.report ctx).satisfied =
        r.conditions.filter (fun text => (ofFormula (.leaf text)).evaluate ctx) ∧
      r.evaluationEvents ctx = r.conditions.filterMap Condition.warning? ∧
      (r.report ctx).events =
        r.conditions.filterMap Condition.warning? ++
          [.evaluated (r.evaluate ctx) r.conditions.length] := by
  have hflags : (r.report ctx).outcomes.map Prod.snd =
      r.conditions.map (Condition.holdsAt ctx) := by
    rw [outcomes_report, List.map_map]
    rfl
  have hlength : (r.report ctx).outcomes.length = r.conditions.length := by
    rw [outcomes_report, List.length_map]
  refine ⟨r.outcomes_report ctx, r.result_report ctx, ?_, ?_, ?_, ?_⟩
  · rw [hflags, truthOf_map_holdsAt, result_report]
  · rw [Report.satisfied, outcomes_report, List.filter_map, List.map_map]
    exact List.map_id _
  · rw [evaluationEvents_eq, flatMap_events]
  · rw [Report.events, warnings_report, flatMap_events, result_report, hlength]

/-- A leaf that is no condition, twice, and one that holds where nothing is known. -/
example :
    let r := ofFormula (.join .or (.join .and (.leaf "a") (.leaf "b != 1")) (.leaf "a"))
    r.report .empty =
      ⟨false, [("a", false), ("b != 1", true), ("a", false)],
        [.unparsableCondition "a" (.invalidFormat "a"),
          .unparsableCondition "a" (.invalidFormat "a")]⟩ := by
  decide

end Rule
end Verdict
