import Mathlib.Algebra.Order.Group.Nat
import Verdict.Rule.Formula
/-
Formulas and their conditions.

Levels and connectives are counted by the conditions below them: a formula has no more
levels than conditions, and every join adds a condition to those it has already.  So nothing
that is leftmost in a formula is as long as a join of that formula with another
(`Leftmost.join_eq`).

A formula is `trimmed` leaf by leaf, and only its conditions tell whether that changes it.
-/
namespace Verdict

namespace Formula

lemma conditions_ne_nil (f : Formula) : f.conditions ≠ [] := by
  induction f with
  | leaf text => simp [conditions]
  | join op left right ihl ihr => simp [conditions, ihl]

lemma one_le_length_conditions (f : Formula) : 1 ≤ f.conditions.length :=
  List.length_pos_iff.mpr f.conditions_ne_nil

lemma length_conditions_join (op : Connective) (left right : Formula) :
    (join op left right).conditions.length = left.conditions.length + right.conditions.length := by
  rw [conditions, List.length_append]

/-- A formula has no more levels than conditions. -/
lemma depth_le_length_conditions (f : Formula) : f.depth ≤ f.conditions.length := by
  induction f with
  | leaf text => exact Nat.le_refl 1
  | join op left right ihl ihr =>
    have hleft := left.one_le_length_conditions
    have hright := right.one_le_length_conditions
    rw [depth, length_conditions_join]
    omega

/-- The formula `g` is `f` or stands leftmost in it. -/
inductive Leftmost (g : Formula) : Formula → Prop
  | refl : Leftmost g g
  | join (op : Connective) {left : Formula} (right : Formula) :
      Leftmost g left → Leftmost g (join op left right)

lemma Leftmost.length_conditions_le {g f : Formula} (h : g.Leftmost f) :
    g.conditions.length ≤ f.conditions.length := by
  induction h with
  | refl => exact Nat.le_refl _
  | join op right _ ih =>
    rw [length_conditions_join]
    omega

/-- Of all joins of `f`, only the formula itself is leftmost in a join of `f`. -/
lemma Leftmost.join_eq {op op' : Connective} {f g g' : Formula}
    (h : (Formula.join op' f g').Leftmost (.join op f g)) : op' = op ∧ g' = g := by
  cases h with
  | refl => exact ⟨rfl, rfl⟩
  | join _ _ h =>
    have hle := h.length_conditions_le
    have hpos := g'.one_le_length_conditions
    rw [length_conditions_join] at hle
    omega

/-! ## Trimmed formulas -/

/-- The formula with the blanks around its conditions left out. -/
def trimmed : Formula → Formula
  | leaf text => condition text
  | join op left right => join op left.trimmed right.trimmed

lemma trimmed_eq_self_iff {f : Formula} :
    f.trimmed = f ↔ ∀ text ∈ f.conditions, Text.trimmed text = text := by
  induction f with
  | leaf text => simp [trimmed, condition, conditions]
  | join op left right ihl ihr =>
    rw [trimmed, join.injEq, ihl, ihr, conditions, List.forall_mem_append]
    exact and_iff_right rfl

end Formula

namespace Rule

/-- The rule with the blanks around its conditions left out. -/
def trimmed (r : Rule) : Rule := ⟨r.formula?.map Formula.trimmed⟩

lemma trimmed_eq_self_iff {r : Rule} :
    r.trimmed = r ↔ ∀ text ∈ r.conditions, Text.trimmed text = text := by
  obtain ⟨_ | f⟩ := r
  · simp [trimmed, conditions]
  · rw [trimmed, Option.map_some, mk.injEq, Option.some.injEq]
    exact Formula.trimmed_eq_self_iff

end Rule

end Verdict
