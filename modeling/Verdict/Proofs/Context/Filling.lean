import Mathlib.Data.Finset.Card
import Verdict.Proofs.Context
/-
The ways to fill a context.

A context may be made of a list of pairs at once, by a chain of settings, or by one insertion after
the other.  These are the same, for each of them lets the last pair of a name count
(`Context.ofList_eq_insertAll`).  Where the pairs of other names stand does not matter, so a list
may be rearranged as long as the pairs of each name stay in order, and no rule can tell which list
a context was filled from (`Context.filled_alike`).
-/
namespace Verdict

namespace Context

variable (pairs : List (String × Value))

lemma insertAll_eq_insertMany (c : Context) :
    c.insertAll pairs = ⟨c.entries.insertMany pairs⟩ := by
  induction pairs generalizing c with
  | nil => rw [Std.ExtTreeMap.insertMany_nil]; rfl
  | cons pair pairs ih =>
    rw [Std.ExtTreeMap.insertMany_cons]
    exact ih (c.insert pair.1 pair.2)

/-- A list is put in at once as it is put in one by one. -/
theorem ofList_eq_insertAll : ofList pairs = empty.insertAll pairs := by
  rw [insertAll_eq_insertMany, ofList, Std.ExtTreeMap.ofList_eq_insertMany_empty]
  rfl

lemma lookup_eq_find? (name : String) :
    pairs.lookup name = (pairs.find? (·.1 == name)).map (·.2) := by
  induction pairs with
  | nil => rfl
  | cons pair pairs ih =>
    rw [List.lookup_cons, List.find?_cons, ih, BEq.comm]
    cases pair.1 == name <;> rfl

/-- The last pair of a name counts. -/
theorem get?_ofList (name : String) :
    (ofList pairs).get? name = ((pairs.filter (·.1 == name)).getLast?).map (·.2) := by
  rw [ofList_eq_insertAll, get?_insertAll, get?_empty, Option.or_none, lookup_eq_find?,
    List.getLast?_filter]

theorem size_ofList : (ofList pairs).size = (pairs.map (·.1)).toFinset.card := by
  have hkeys : (ofList pairs).entries.keys.toFinset = (pairs.map (·.1)).toFinset := by
    ext name
    rw [List.mem_toFinset, List.mem_toFinset, Std.ExtTreeMap.mem_keys, ofList,
      Std.ExtTreeMap.mem_ofList, List.contains_iff_mem]
  rw [size, ← Std.ExtTreeMap.length_keys, ← hkeys,
    List.toFinset_card_of_nodup Std.ExtTreeMap.nodup_keys]

lemma isEmpty_ofList_iff : (ofList pairs).isEmpty = true ↔ pairs = [] := by
  rw [isEmpty, Std.ExtTreeMap.isEmpty_eq_size_beq_zero, beq_iff_eq]
  change (ofList pairs).size = 0 ↔ _
  rw [size_ofList, Finset.card_eq_zero, List.toFinset_eq_empty_iff, List.map_eq_nil_iff]

/-- The lists have the same pairs of each name, and these in the same order. -/
def Rearranged (pairs pairs' : List (String × Value)) : Prop :=
  ∀ name, pairs.filter (·.1 == name) = pairs'.filter (·.1 == name)

/-- Neighbours with different names may change places. -/
lemma Rearranged.swap {p q : String × Value} (hne : p.1 ≠ q.1)
    (before after : List (String × Value)) :
    Rearranged (before ++ p :: q :: after) (before ++ q :: p :: after) := by
  intro name
  rw [List.filter_append, List.filter_append]
  congr 1
  by_cases hp : p.1 = name
  · have hq : q.1 ≠ name := fun hq => hne (hp.trans hq.symm)
    simp [hp, hq]
  · simp [List.filter_cons, hp]

variable {pairs} in
lemma Rearranged.ofList_eq {pairs' : List (String × Value)} (h : Rearranged pairs pairs') :
    ofList pairs = ofList pairs' :=
  ext fun name => by rw [get?_ofList, get?_ofList, h name]

/-- **The ways to fill a context agree.**  A list of pairs put in at once, by a chain of settings
or by insertions gives one context.  This knows for each name the value of the last pair with the
name; it has as many attributes as there are different names, and none only if there is no pair.
To insert one more attribute does not change the others.  A list in which the pairs of each name
stand in the same order gives the same context, so rules are evaluated in it as before. -/
theorem filled_alike :
    pairs.foldl (fun c pair => c.set pair.1 pair.2) empty = ofList pairs ∧
    pairs.foldl (fun c pair => c.insert pair.1 pair.2) empty = ofList pairs ∧
    (∀ name, (ofList pairs).get? name = ((pairs.filter (·.1 == name)).getLast?).map (·.2)) ∧
    (ofList pairs).size = (pairs.map (·.1)).toFinset.card ∧
    ((ofList pairs).isEmpty = true ↔ pairs = []) ∧
    (∀ name other value, name ≠ other →
      ((ofList pairs).insert name value).get? other = (ofList pairs).get? other) ∧
    ∀ pairs', Rearranged pairs pairs' → ofList pairs = ofList pairs' ∧
      ∀ r : Rule, r.evaluate (ofList pairs) = r.evaluate (ofList pairs') ∧
        r.report (ofList pairs) = r.report (ofList pairs') := by
  have hfold := (ofList_eq_insertAll pairs).symm
  refine ⟨hfold, hfold, get?_ofList pairs, size_ofList pairs, isEmpty_ofList_iff pairs, ?_, ?_⟩
  · intro name other value hne
    rw [get?_insert, if_neg hne]
  · intro pairs' h
    have heq := h.ofList_eq
    exact ⟨heq, fun r => ⟨congrArg r.evaluate heq, congrArg r.report heq⟩⟩

/-- A name that is set twice keeps its last value wherever another name is set between. -/
theorem filled_alike_overwritten :
    let pairs := [("a", Value.text "x"), ("b", .text "y"), ("a", .text "z")]
    let pairs' := [("b", Value.text "y"), ("a", .text "x"), ("a", .text "z")]
    (ofList pairs).get? "a" = some (.text "z") ∧ (ofList pairs).size = 2 ∧
      ((ofList pairs).insert "a" (.text "w")).get? "b" = some (.text "y") ∧
      ofList pairs = ofList pairs' ∧
      (Rule.ofFormula (.leaf "a = 'z'")).report (ofList pairs) =
        (Rule.ofFormula (.leaf "a = 'z'")).report (ofList pairs') := by
  intro pairs pairs'
  have hrearranged : Rearranged pairs pairs' :=
    Rearranged.swap (p := ("a", Value.text "x")) (q := ("b", .text "y")) (by decide) []
      [("a", .text "z")]
  obtain ⟨-, -, hget, hsize, -, hother, hlist⟩ := filled_alike pairs
  obtain ⟨heq, hreport⟩ := hlist pairs' hrearranged
  refine ⟨?_, ?_, ?_, heq, (hreport _).2⟩
  · rw [hget]
    decide
  · rw [hsize]
    decide
  · rw [hother "a" "b" (.text "w") (by decide), hget]
    decide

end Context
end Verdict
