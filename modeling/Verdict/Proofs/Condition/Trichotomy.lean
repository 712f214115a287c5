import Verdict.Proofs.Comparison
import Verdict.Proofs.Condition.Normal
import Verdict.Proofs.Evaluation
/-
One attribute under all comparators.

A condition is cut at the same places whichever comparator stands in it, so its outcome is what the
comparator says of one and the same pair of values.  They are ordered or they are not, and an
attribute that is not known counts as a value that is not ordered (`Condition.holds_eq`).  So the
six outcomes go together as the six sets of answers do (`Rule.evaluate_compared`).
-/
namespace Verdict

namespace Value

/-- Both are numbers, or both are texts. -/
def SameKind : Value → Value → Prop
  | number _, number _ => True
  | text _, text _ => True
  | _, _ => False

/-- The value is a number only by its kind. -/
def isNaN : Value → Bool
  | number x => x.isNaN
  | text _ => false

/-- The value of a right-hand side is a finite number or a text. -/
lemma isNaN_ofLiteral (raw : String) : (ofLiteral raw).isNaN = false := by
  cases h : ofLiteral raw with
  | number x => exact x.isNaN_of_isFinite (isFinite_of_ofLiteral h)
  | text s => rfl

lemma isSome_partialCompare_iff {v w : Value} (hw : w.isNaN = false) :
    (v.partialCompare w).isSome = true ↔ v.SameKind w ∧ v.isNaN = false := by
  cases v with
  | number x =>
    cases w with
    | number y =>
      have hy : y.isNaN = false := hw
      rw [partialCompare, Binary64.partialCompare, hy, SameKind, isNaN, true_and]
      cases x.isNaN <;> simp
    | text t => exact iff_of_false Bool.false_ne_true And.left
  | text s =>
    cases w with
    | number y => exact iff_of_false Bool.false_ne_true And.left
    | text t => exact iff_of_true rfl ⟨trivial, rfl⟩

end Value

namespace Context

/-- How the attribute `name` is ordered with `v`, if it is known and they are ordered. -/
def order (ctx : Context) (name : String) (v : Value) : Option Ordering :=
  (ctx.get? name).bind (·.partialCompare v)

lemma isSome_order_iff (ctx : Context) (name : String) {w : Value} (hw : w.isNaN = false) :
    (ctx.order name w).isSome = true ↔
      ∃ v, ctx.get? name = some v ∧ v.SameKind w ∧ v.isNaN = false := by
  rw [order]
  cases ctx.get? name with
  | none => simp
  | some v => simpa using Value.isSome_partialCompare_iff hw

end Context

/-- What is not known is like what is not ordered. -/
lemma Condition.holds_eq (c : Condition) (ctx : Context) :
    c.holds ctx = c.comparator.holds (ctx.order c.name c.value) := by
  rw [holds, Context.order]
  cases ctx.get? c.name with
  | none => cases c.comparator <;> rfl
  | some v => exact v.compareWith_eq c.comparator c.value

namespace Rule

open Comparator in
/-- **The comparators are consistent.**  Let all six compare an attribute with one right-hand side,
each in a leaf of its own.  Then `!=` holds if and only if `=` does not, and `>=` and `<=` hold if
and only if `>` or `=`, or `<` or `=`, does.  No more than one of `<`, `=` and `>` holds; one does
if and only if the attribute is known, of the kind of the right-hand side, and not a NaN.  The
right-hand side itself is never a NaN, and not infinite either. -/
theorem evaluate_compared {name literal : String} (hname_ne : name ≠ "")
    (hname : ∀ c ∈ name.toList, Text.isWordChar c = true) (hliteral_ne : literal ≠ "")
    (hliteral : Text.trimmed literal = literal) (ctx : Context) :
    let outcome (c : Comparator) : Bool :=
      (ofFormula (.leaf (name ++ " " ++ c.symbol ++ " " ++ literal))).evaluate ctx
    outcome notEqual = !outcome equal ∧
    outcome greaterEqual = (outcome greater || outcome equal) ∧
    outcome lessEqual = (outcome less || outcome equal) ∧
    [less, equal, greater].countP outcome ≤ 1 ∧
    ([less, equal, greater].countP outcome = 1 ↔
      ∃ v, ctx.get? name = some v ∧ v.SameKind (.ofLiteral literal) ∧ v.isNaN = false) ∧
    ∀ x, Value.ofLiteral literal = .number x → x.isFinite = true := by
  intro outcome
  have htrimmed : Text.Trimmed literal.toList := by
    rw [← hliteral, Text.trimmed, String.toList_ofList]
    exact Text.trimmed_trim _
  -- all comparators ask for this order
  have hknown := ctx.isSome_order_iff name (Value.isNaN_ofLiteral literal)
  obtain ⟨o, ho⟩ : ∃ o, o = ctx.order name (.ofLiteral literal) := ⟨_, rfl⟩
  rw [← ho] at hknown
  have hparse (c : Comparator) : Condition.parse (name ++ " " ++ c.symbol ++ " " ++ literal) =
      .ok ⟨name, c, .ofLiteral literal⟩ := by
    rw [Condition.parse, Condition.split_written c (String.toList_eq_nil_iff.not.mpr hname_ne) hname
      htrimmed (String.toList_eq_nil_iff.not.mpr hliteral_ne)]
    rfl
  have houtcome (c : Comparator) : outcome c = c.holds o := by
    calc outcome c
        = Condition.holdsAt ctx (name ++ " " ++ c.symbol ++ " " ++ literal) := evaluate_leaf ctx _
      _ = Condition.holds ⟨name, c, .ofLiteral literal⟩ ctx :=
          Condition.holdsAt_of_parse (hparse c) ctx
      _ = c.holds o := by rw [Condition.holds_eq, ho]
  have hcount : [less, equal, greater].countP outcome = if o.isSome then 1 else 0 := by
    rw [funext houtcome]
    exact Comparator.countP_holds o
  refine ⟨?_, ?_, ?_, ?_, ?_, fun x => Value.isFinite_of_ofLiteral⟩
  · rw [houtcome, houtcome, holds, holds, bne]
  · rw [houtcome, houtcome, houtcome, holds, holds, holds]
  · rw [houtcome, houtcome, houtcome, holds, holds, holds]
  · rw [hcount]
    split_ifs <;> decide
  · rw [hcount, ← hknown]
    by_cases h : o.isSome = true
    · exact iff_of_true (if_pos h) h
    · exact iff_of_false (by rw [if_neg h]; decide) h

open Comparator in
/-- A right-hand side that starts with the characters of a comparator is a text.  An attribute that
is a text is smaller or larger than this; one that is not known, or a number, is neither. -/
theorem evaluate_compared_symbol :
    let ctx := (Context.empty.insert "a" (.text ">2")).insert "b" (.number ⟨0⟩)
    let outcome (name : String) (c : Comparator) : Bool :=
      (ofFormula (.leaf (name ++ " " ++ c.symbol ++ " " ++ "=1"))).evaluate ctx
    [less, equal, greater].countP (outcome "a") = 1 ∧
      [less, equal, greater].countP (outcome "b") ≠ 1 ∧
      outcome "c" notEqual = !outcome "c" equal := by
  intro ctx outcome
  have hliteral : Value.ofLiteral "=1" = .text "=1" := by decide
  have h (name : String) (hname_ne : name ≠ "") (hname : name.toList.all Text.isWordChar = true) :=
    @evaluate_compared name "=1" hname_ne (List.all_eq_true.mp hname) (by decide) (by decide) ctx
  obtain ⟨-, -, -, -, hknown, -⟩ := h "a" (by decide) (by decide)
  obtain ⟨-, -, -, -, hnumber, -⟩ := h "b" (by decide) (by decide)
  obtain ⟨hunknown, -⟩ := h "c" (by decide) (by decide)
  refine ⟨hknown.mpr ⟨.text ">2", ?_, ?_, rfl⟩, mt hnumber.mp ?_, hunknown⟩
  · simp [ctx, Context.get?_insert]
  · rw [hliteral]
    trivial
  · rintro ⟨v, hv, hkind, -⟩
    obtain rfl : Value.number ⟨0⟩ = v := by simpa [ctx, Context.get?_insert] using hv
    rw [hliteral] at hkind
    exact hkind

end Rule
end Verdict
