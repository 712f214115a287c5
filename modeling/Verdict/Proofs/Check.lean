import Mathlib.Data.List.Basic
import Verdict.Condition
/-
Checks, one after the other.

A check that comes first decides where it fails, and what comes behind it is not looked at; all of
them succeed where each does.  The readers of documents and of archives check the conditions of a
rule in this way, one after the other in their order (`Condition.checkAll`).
-/
namespace Verdict

section Except

variable {ε α β : Type} {x : Except ε α} {b : β}

/-- One step after another succeeds if each of them does. -/
lemma bind_eq_ok_iff {f : α → Except ε β} : x >>= f = .ok b ↔ ∃ a, x = .ok a ∧ f a = .ok b := by
  constructor
  · intro h
    cases x with
    | error e => cases h
    | ok a => exact ⟨a, rfl, h⟩
  · rintro ⟨a, rfl, h⟩
    exact h

lemma map_eq_ok_iff {f : α → β} : x.map f = .ok b ↔ ∃ a, x = .ok a ∧ f a = b := by
  cases x <;> simp [Except.map]

end Except

namespace Condition

/-- The first of `texts` that is not a condition is an error. -/
def checkAll : List String → Except ConditionError Unit
  | [] => .ok ()
  | text :: texts =>
    match split text with
    | .ok _ => checkAll texts
    | .error e => .error e

lemma checkAll_eq_ok {texts : List String}
    (h : ∀ text ∈ texts, ∃ parts, split text = .ok parts) : checkAll texts = .ok () := by
  induction texts with
  | nil => rfl
  | cons text texts ih =>
    obtain ⟨parts, hparts⟩ := h text List.mem_cons_self
    rw [checkAll, hparts]
    exact ih fun text' htext' => h text' (List.mem_cons_of_mem _ htext')

lemma split_of_checkAll {texts : List String} (h : checkAll texts = .ok ()) :
    ∀ text ∈ texts, ∃ parts, split text = .ok parts := by
  induction texts with
  | nil => simp
  | cons text texts ih =>
    rw [checkAll] at h
    split at h
    · rename_i parts hparts
      intro text' htext'
      rcases List.mem_cons.mp htext' with rfl | htext'
      · exact ⟨parts, hparts⟩
      · exact ih h text' htext'
    · simp at h

/-- The first text that is no condition decides. -/
lemma checkAll_eq_error {before after : List String} {text : String} {error : ConditionError}
    (h : ∀ earlier ∈ before, ∃ parts, split earlier = .ok parts)
    (htext : split text = .error error) :
    checkAll (before ++ text :: after) = .error error := by
  induction before with
  | nil => rw [List.nil_append, checkAll, htext]
  | cons earlier before ih =>
    obtain ⟨parts, hparts⟩ := h earlier List.mem_cons_self
    rw [List.cons_append, checkAll, hparts]
    exact ih fun text' htext' => h text' (List.mem_cons_of_mem _ htext')

/-- Texts are checked from left to right. -/
lemma checkAll_append (before after : List String) :
    checkAll (before ++ after) =
      match checkAll before with
      | .ok () => checkAll after
      | .error error => .error error := by
  induction before with
  | nil => rfl
  | cons text before ih =>
    rw [List.cons_append, checkAll, checkAll, ih]
    cases split text <;> rfl

end Condition
end Verdict
