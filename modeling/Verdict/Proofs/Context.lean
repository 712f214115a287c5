import Verdict.Proofs.Evaluation
/-
What a rule reads of a context.

A condition looks up the attribute that it names, and nothing else of a context goes into its
outcome.  So a rule has the same report in two contexts that agree on the attributes which its
conditions name.  Of the way in which a context was filled, only the last value of each of these
attributes counts (`Rule.report_of_agree`).
-/
namespace Verdict

namespace Context

/-- `c` after the attributes of `pairs` have been set, one after the other. -/
def insertAll (c : Context) (pairs : List (String × Value)) : Context :=
  pairs.foldl (fun c pair => c.insert pair.1 pair.2) c

/-- The last value that is set stays. -/
lemma get?_insertAll (c : Context) (pairs : List (String × Value)) (name : String) :
    (c.insertAll pairs).get? name = (pairs.reverse.lookup name).or (c.get? name) := by
  induction pairs generalizing c with
  | nil => rfl
  | cons pair pairs ih =>
    obtain ⟨key, value⟩ := pair
    have hfirst : ([(key, value)].lookup name).or (c.get? name) =
        (c.insert key value).get? name := by
      rw [get?_insert, List.lookup_cons, List.lookup_nil]
      by_cases h : name = key
      · simp [h]
      · simp [beq_eq_false_iff_ne.mpr h, Ne.symm h]
    rw [List.reverse_cons, List.lookup_append, Option.or_assoc, hfirst]
    exact ih (c.insert key value)

end Context

variable {c d : Context}

namespace Condition

/-- The attribute that the leaf `text` names, if it is a condition. -/
def nameAt? (text : String) : Option String := (parse text).toOption.map (·.name)

lemma holds_congr {condition : Condition} (h : c.get? condition.name = d.get? condition.name) :
    condition.holds c = condition.holds d := by
  rw [holds, holds, h]

lemma outcome_congr {text : String} (h : ∀ name ∈ nameAt? text, c.get? name = d.get? name) :
    outcome c text = outcome d text := by
  rw [outcome, outcome]
  cases hparse : parse text with
  | error error => rfl
  | ok condition =>
    have hname : nameAt? text = some condition.name := by rw [nameAt?, hparse]; rfl
    exact congrArg Except.ok (holds_congr (h condition.name hname))

end Condition

lemma Formula.report_congr {f : Formula}
    (h : ∀ text ∈ f.conditions, Condition.outcome c text = Condition.outcome d text) :
    f.report c = f.report d := by
  induction f with
  | leaf text =>
    rw [report, report, h text (List.mem_singleton.mpr rfl)]
  | join op left right ihl ihr =>
    rw [report, report, ihl fun text htext => h text (List.mem_append_left _ htext),
      ihr fun text htext => h text (List.mem_append_right _ htext)]

namespace Rule

/-- The attributes that the conditions of the rule name. -/
def names (r : Rule) : List String := r.conditions.filterMap Condition.nameAt?

lemma report_congr {r : Rule} (h : ∀ name ∈ r.names, c.get? name = d.get? name) :
    r.report c = r.report d := by
  obtain ⟨_ | f⟩ := r
  · rfl
  · refine Formula.report_congr fun text htext => Condition.outcome_congr fun name hname => ?_
    exact h name (List.mem_filterMap.mpr ⟨text, htext, hname⟩)

/-- **A rule reads the attributes that it names.**  In two contexts that agree on these, whatever
else they know, it has the same truth and the same report.  Two contexts that were filled in
different ways agree where the values that were set last are the same. -/
theorem report_of_agree (r : Rule) :
    (∀ c d : Context, (∀ name ∈ r.names, c.get? name = d.get? name) →
      r.evaluate c = r.evaluate d ∧ r.report c = r.report d) ∧
    (∀ pairs pairs' : List (String × Value),
      (∀ name ∈ r.names, pairs.reverse.lookup name = pairs'.reverse.lookup name) →
      r.evaluate (Context.empty.insertAll pairs) = r.evaluate (Context.empty.insertAll pairs') ∧
        r.report (Context.empty.insertAll pairs) = r.report (Context.empty.insertAll pairs')) := by
  have hsame {c d : Context} (h : ∀ name ∈ r.names, c.get? name = d.get? name) :
      r.evaluate c = r.evaluate d ∧ r.report c = r.report d := by
    have hreport := report_congr h
    exact ⟨by rw [← result_report, hreport, result_report], hreport⟩
  refine ⟨fun c d h => hsame h, fun pairs pairs' h => hsame fun name hname => ?_⟩
  rw [Context.get?_insertAll, Context.get?_insertAll, h name hname]

/-- Two contexts that agree on the two attributes which a rule names, one of them unknown; a third
attribute occurs only in a leaf that is no condition.  And two ways to fill a context, in another
order and with one value set twice. -/
theorem report_of_agree_filled :
    let r := ofFormula (.join .and (.leaf "a = 'x'") (.join .or (.leaf "b != 'y'") (.leaf "c")))
    let c := Context.empty.insert "a" (.text "x")
    let d := (Context.empty.insert "c" (.text "z")).insert "a" (.text "x")
    let pairs := [("b", Value.text "z"), ("a", .text "x")]
    let pairs' := [("a", Value.text "w"), ("c", .text "c"), ("a", .text "x"), ("b", .text "z")]
    r.names = ["a", "b"] ∧ c ≠ d ∧ r.evaluate c = r.evaluate d ∧ r.report c = r.report d ∧
      r.report (Context.empty.insertAll pairs) = r.report (Context.empty.insertAll pairs') := by
  intro r c d pairs pairs'
  have hnames : r.names = ["a", "b"] := by decide
  have hknown : ∀ name ∈ r.names, c.get? name = d.get? name := by
    simp [hnames, c, d, Context.get?_insert]
  have hlast : ∀ name ∈ r.names, pairs.reverse.lookup name = pairs'.reverse.lookup name := by
    rw [hnames]
    decide
  have hne : c ≠ d := by
    intro heq
    have hthird := congrArg (Context.get? · "c") heq
    simp [c, d, Context.get?_insert] at hthird
  obtain ⟨hevaluate, hreport⟩ := (report_of_agree r).1 c d hknown
  exact ⟨hnames, hne, hevaluate, hreport, ((report_of_agree r).2 pairs pairs' hlast).2⟩

end Rule
end Verdict
