import Verdict.Proofs.Combination
/-
More truth among the conditions.

Nothing in a rule negates: what makes a leaf true never makes the rule false, since both
connectives are monotone.  The same goes for combinations, rule by rule.  An empty rule may take
the place of any other there; whether it empties the whole or is left out, it counts as one that
is false (`Rule.evaluate_joined`), so it does not matter where the empty rules stand.
-/
namespace Verdict

variable {c d : Context}

namespace Connective

lemma apply_mono (op : Connective) {a b a' b' : Bool} (ha : a = true → a' = true)
    (hb : b = true → b' = true) (h : op.apply a b = true) : op.apply a' b' = true := by
  cases op with
  | and =>
    rw [apply, Bool.and_eq_true] at h ⊢
    exact h.imp ha hb
  | or =>
    rw [apply, Bool.or_eq_true] at h ⊢
    exact h.imp ha hb

lemma applyAll_mono (op : Connective) {truths truths' : List Bool}
    (h : List.Forall₂ (fun b b' => b = true → b' = true) truths truths')
    (htrue : op.applyAll truths = true) : op.applyAll truths' = true := by
  induction h with
  | nil => exact htrue
  | cons hb _ ih =>
    rw [applyAll_cons] at htrue ⊢
    exact op.apply_mono hb ih htrue

end Connective

lemma Formula.evaluate_mono {f : Formula}
    (h : ∀ text ∈ f.conditions, Condition.holdsAt c text = true → Condition.holdsAt d text = true)
    (htrue : f.evaluate c = true) : f.evaluate d = true := by
  induction f with
  | leaf text => exact h text (List.mem_singleton.mpr rfl) htrue
  | join op left right ihl ihr =>
    have hleft := ihl fun text htext => h text (List.mem_append_left _ htext)
    have hright := ihr fun text htext => h text (List.mem_append_right _ htext)
    exact op.apply_mono hleft hright htrue

namespace Rule

lemma evaluate_mono {r : Rule}
    (h : ∀ text ∈ r.conditions, Condition.holdsAt c text = true → Condition.holdsAt d text = true)
    (htrue : r.evaluate c = true) : r.evaluate d = true := by
  obtain ⟨_ | f⟩ := r
  · cases htrue
  · exact Formula.evaluate_mono h htrue

/-- Joined rules are monotone in each of the rules. -/
lemma evaluate_joined_mono (op : Connective) {rules rules' : List Rule}
    (h : List.Forall₂ (fun r r' => r.evaluate c = true → r'.evaluate d = true) rules rules')
    (htrue : (joined op rules).evaluate c = true) : (joined op rules').evaluate d = true := by
  have htruths : List.Forall₂ (fun b b' => b = true → b' = true) (rules.map (·.evaluate c))
      (rules'.map (·.evaluate d)) := by
    rwa [List.forall₂_map_left_iff, List.forall₂_map_right_iff]
  cases h with
  | nil =>
    -- no rules come to the empty one, which is false
    rw [joined_of_not_empty (by simp)] at htrue
    cases htrue
  | cons hr hrest =>
    rw [evaluate_joined op (List.cons_ne_nil _ _)] at htrue ⊢
    exact op.applyAll_mono htruths htrue

end Rule

namespace Engine

/-- The texts are those of the rules `rules`, among which `op` is counted more often, and they
combine to `t`. -/
structure Combines (e : Engine) (op : Connective) (texts : List String) (rules : List Rule)
    (t : Rule) : Prop where
  parse_eq : List.Forall₂ (fun text rule => e.parse text = .ok rule) texts rules
  dominant_eq : e.dominant texts rules = op
  combine_eq : e.combine texts = .ok t

lemma Combines.eq_joined {e : Engine} {op : Connective} {texts : List String} {rules : List Rule}
    {t : Rule} (h : e.Combines op texts rules t) : t = .joined op rules := by
  have hcombine := h.combine_eq
  rw [combine_of_parsed h.parse_eq, h.dominant_eq] at hcombine
  split at hcombine
  · exact (Except.ok.inj hcombine).symm
  · cases hcombine

/-- **More truth never hurts.**  A rule that is true in a context is true in any other in which
those of its conditions hold that hold in the first.  Let two lists of rules combine under the
same connective; if every rule of the first list that is true has a true counterpart in the
second, and the combination of the first is true, then so is that of the second. -/
theorem truth_monotone (e : Engine) :
    (∀ (t : Rule) (c d : Context),
      (∀ text ∈ t.conditions,
        Condition.holdsAt c text = true → Condition.holdsAt d text = true) →
      t.evaluate c = true → t.evaluate d = true) ∧
    (∀ (op : Connective) (texts texts' : List String) (rules rules' : List Rule) (t t' : Rule),
      e.Combines op texts rules t → e.Combines op texts' rules' t' →
      ∀ ctx, List.Forall₂ (fun r r' => r.evaluate ctx = true → r'.evaluate ctx = true)
          rules rules' →
        t.evaluate ctx = true → t'.evaluate ctx = true) := by
  refine ⟨fun t c d h => Rule.evaluate_mono h, ?_⟩
  intro op texts texts' rules rules' t t' h h' ctx hrules htrue
  rw [h.eq_joined] at htrue
  rw [h'.eq_joined]
  exact Rule.evaluate_joined_mono op hrules htrue

/-- A rule that stays true in a context that knows more; and two lists of rules, both true where
nothing is known, with their empty rules in different places. -/
theorem truth_monotone_shifted :
    let t := Rule.ofFormula
      (.join .or (.join .and (.leaf "a != 'x'") (.leaf "b = 'y'")) (.leaf "c"))
    let c := Context.empty.insert "b" (.text "y")
    let d := c.insert "a" (.text "z")
    let first : Formula :=
      .join .or (.leaf "a != 'x'") (.join .or (.leaf "b = 'y'") (.leaf "c = 'z'"))
    let second : Formula :=
      .join .or (.join .or (.leaf "a != 'x'") (.leaf "b = 'y'")) (.leaf "c = 'z'")
    (t.evaluate c = true ∧ t.evaluate d = true) ∧
      Engine.default.combine ["a != 'x'", "", "b = 'y' OR c = 'z'"] = .ok (.ofFormula first) ∧
      Engine.default.combine ["a != 'x' OR b = 'y'", "c = 'z'", ""] = .ok (.ofFormula second) ∧
      (Rule.ofFormula first).evaluate .empty = true ∧
      (Rule.ofFormula second).evaluate .empty = true := by
  intro t c d first second
  have hmore : ∀ text ∈ t.conditions,
      Condition.holdsAt c text = true → Condition.holdsAt d text = true := by decide
  have hc : t.evaluate c = true := by decide
  have hfirst : Engine.default.Combines .or ["a != 'x'", "", "b = 'y' OR c = 'z'"]
      [.ofFormula (.leaf "a != 'x'"), .empty,
        .ofFormula (.join .or (.leaf "b = 'y'") (.leaf "c = 'z'"))] (.ofFormula first) :=
    ⟨.cons (by decide) (.cons (by decide) (.cons (by decide) .nil)), by decide, by decide⟩
  have hsecond : Engine.default.Combines .or ["a != 'x' OR b = 'y'", "c = 'z'", ""]
      [.ofFormula (.join .or (.leaf "a != 'x'") (.leaf "b = 'y'")), .ofFormula (.leaf "c = 'z'"),
        .empty] (.ofFormula second) :=
    ⟨.cons (by decide) (.cons (by decide) (.cons (by decide) .nil)), by decide, by decide⟩
  have htrue : (Rule.ofFormula first).evaluate .empty = true := by decide
  obtain ⟨hleaves, hlists⟩ := truth_monotone .default
  exact ⟨⟨hc, hleaves t c d hmore hc⟩, hfirst.combine_eq, hsecond.combine_eq, htrue,
    hlists _ _ _ _ _ _ _ hfirst hsecond .empty
      (.cons (by decide) (.cons (by decide) (.cons (by decide) .nil))) htrue⟩

end Engine
end Verdict
