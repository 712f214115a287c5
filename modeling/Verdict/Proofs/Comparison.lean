import Verdict.Proofs.Number.Order
import Verdict.Proofs.Text.Order
import Verdict.Value
/-
The order of values.

A comparator asks one question about how two values are ordered, where values of different kinds,
and a NaN with anything, are not ordered at all (`Value.compareWith_eq`).  So the whole behaviour
of a comparator is a set of the four possible answers, and the laws that tie comparators together
are laws of these sets.

The laws of a single comparator come from the order.  It is turned around if the values are
exchanged, and what is at most one value is at most all that this is at most
(`Value.partialCompare_trans`); a value that is not ordered even with itself satisfies no premise
of such a law.
-/
namespace Verdict

namespace Comparator

/-- Whether the comparator holds of two values that are ordered as given, if they are ordered. -/
def holds : Comparator → Option Ordering → Bool
  | greater, o => o == some .gt
  | less, o => o == some .lt
  | greaterEqual, o => o == some .gt || o == some .eq
  | lessEqual, o => o == some .lt || o == some .eq
  | equal, o => o == some .eq
  | notEqual, o => o != some .eq

/-- The comparator that says the same of two values in exchange. -/
def mirrored : Comparator → Comparator
  | greater => less
  | less => greater
  | greaterEqual => lessEqual
  | lessEqual => greaterEqual
  | equal => equal
  | notEqual => notEqual

lemma holds_mirrored (c : Comparator) (o : Option Ordering) :
    c.mirrored.holds (o.map .swap) = c.holds o := by
  cases c <;> rcases o with _ | (_ | _ | _) <;> rfl

/-- Values that are ordered are less, equal or greater, and others none of these. -/
lemma countP_holds (o : Option Ordering) :
    [less, equal, greater].countP (holds · o) = if o.isSome then 1 else 0 := by
  rcases o with _ | (_ | _ | _) <;> rfl

/-- The comparators that hold upwards hold of values that are ordered. -/
lemma exists_isLE_of_holds {c : Comparator} (hc : c ∈ [less, lessEqual, equal])
    {o : Option Ordering} (h : c.holds o = true) : ∃ p, o = some p ∧ p.isLE = true := by
  simp only [List.mem_cons, List.not_mem_nil, or_false] at hc
  rcases hc with rfl | rfl | rfl <;> rcases o with _ | (_ | _ | _) <;>
    first | exact ⟨_, rfl, rfl⟩ | cases h

end Comparator

/-! ## Linear orders -/

lemma compare_eq_then {α : Type} [Ord α] [Std.TransOrd α] {a b c : α}
    (hab : (compare a b).isLE = true) (hbc : (compare b c).isLE = true) :
    compare a c = (compare a b).then (compare b c) := by
  cases h : compare a b with
  | lt => exact Std.TransCmp.lt_of_lt_of_isLE h hbc
  | eq => exact Std.TransCmp.congr_left h
  | gt => rw [h] at hab; cases hab

namespace Binary64

variable {x y z : Binary64}

lemma partialCompare_eq_some_iff {o : Ordering} :
    x.partialCompare y = some o ↔
      x.isNaN = false ∧ y.isNaN = false ∧ compare x.key y.key = o := by
  rw [partialCompare]
  cases x.isNaN <;> cases y.isNaN <;> simp

lemma partialCompare_swap (x y : Binary64) :
    y.partialCompare x = (x.partialCompare y).map .swap := by
  rw [partialCompare, partialCompare, Bool.or_comm]
  split_ifs
  · rfl
  · exact congrArg some Std.OrientedCmp.eq_swap

end Binary64

namespace Value

variable {u v w : Value}

/-- Exchanged values are ordered the other way. -/
lemma partialCompare_swap (v w : Value) : w.partialCompare v = (v.partialCompare w).map .swap := by
  cases v <;> cases w
  case number.number x y => exact x.partialCompare_swap y
  case text.text s t => exact congrArg some Std.OrientedCmp.eq_swap
  all_goals rfl

lemma partialCompare_trans {o p : Ordering} (huv : u.partialCompare v = some o)
    (hvw : v.partialCompare w = some p) (ho : o.isLE = true) (hp : p.isLE = true) :
    u.partialCompare w = some (o.then p) := by
  cases u with
  | number x =>
    cases v with
    | text s => cases huv
    | number y =>
      cases w with
      | text s => cases hvw
      | number z =>
        obtain ⟨hx, -, rfl⟩ := Binary64.partialCompare_eq_some_iff.mp huv
        obtain ⟨-, hz, rfl⟩ := Binary64.partialCompare_eq_some_iff.mp hvw
        exact Binary64.partialCompare_eq_some_iff.mpr ⟨hx, hz, compare_eq_then ho hp⟩
  | text r =>
    cases v with
    | number x => cases huv
    | text s =>
      cases w with
      | number x => cases hvw
      | text t =>
        obtain rfl := Option.some.inj huv
        obtain rfl := Option.some.inj hvw
        exact congrArg some (compare_eq_then ho hp)

/-- Values are the same if they are ordered as equals. -/
lemma sameAs_eq (v w : Value) : v.sameAs w = (v.partialCompare w == some .eq) := by
  cases v with
  | number x =>
    cases w with
    | number y => exact x.equals_eq y
    | text s => rfl
  | text s =>
    cases w with
    | number y => rfl
    | text t =>
      rw [sameAs, partialCompare, Bool.eq_iff_iff, beq_iff_eq, beq_iff_eq, Option.some.injEq,
        Std.LawfulEqOrd.compare_eq_iff_eq]

/-- A comparator asks how the values are ordered and nothing else. -/
theorem compareWith_eq (v : Value) (c : Comparator) (w : Value) :
    v.compareWith c w = c.holds (v.partialCompare w) := by
  cases c with
  | equal => exact v.sameAs_eq w
  | notEqual => exact congrArg not (v.sameAs_eq w)
  | greater | less | greaterEqual | lessEqual => rfl

lemma compareWith_mirrored (v : Value) (c : Comparator) (w : Value) :
    w.compareWith c.mirrored v = v.compareWith c w := by
  rw [compareWith_eq, compareWith_eq, partialCompare_swap v w, Comparator.holds_mirrored]

/-- Numbers are compared as the numbers of the standard library are. -/
theorem compareWith_number (x y : Binary64) (c : Comparator) :
    (number x).compareWith c (number y) = c.holds (x.unpacked.compare y.unpacked) := by
  rw [compareWith_eq, Binary64.compare_unpacked]
  rfl

/-- Comparators that only hold upwards are chained if their answers are. -/
lemma compareWith_trans {c d e : Comparator} (hc : c ∈ [.less, .lessEqual, .equal])
    (hd : d ∈ [.less, .lessEqual, .equal])
    (he : ∀ o p : Ordering, c.holds (some o) = true → d.holds (some p) = true →
      e.holds (some (o.then p)) = true)
    (huv : u.compareWith c v = true) (hvw : v.compareWith d w = true) :
    u.compareWith e w = true := by
  rw [compareWith_eq] at huv hvw ⊢
  obtain ⟨o, ho, hle⟩ := Comparator.exists_isLE_of_holds hc huv
  obtain ⟨p, hp, hle'⟩ := Comparator.exists_isLE_of_holds hd hvw
  rw [ho] at huv
  rw [hp] at hvw
  rw [partialCompare_trans ho hp hle hle']
  exact he o p huv hvw

/-- **The comparators order the values of each kind.**  What one value says of another, the other
says in exchange.  The comparators that hold upwards are transitive, no value is less than itself,
and values are equal if and only if each is at most the other.  Of values of different kinds only
the comparator `!=` holds.  Texts are less, equal or greater, by the first character in which they
differ, or because one of them goes on where the other ends; by their bytes it is the same. -/
theorem compareWith_ordered (u v w : Value) (x : Binary64) (s t : String) :
    v.compareWith .less w = w.compareWith .greater v ∧
    v.compareWith .lessEqual w = w.compareWith .greaterEqual v ∧
    (∀ c ∈ [Comparator.less, .lessEqual, .equal],
      u.compareWith c v = true → v.compareWith c w = true → u.compareWith c w = true) ∧
    v.compareWith .less v = false ∧
    (v.compareWith .lessEqual w = true ∧ w.compareWith .lessEqual v = true ↔
      v.compareWith .equal w = true) ∧
    (u.compareWith .less v = true → v.compareWith .lessEqual w = true →
      u.compareWith .less w = true) ∧
    (∀ c ≠ Comparator.notEqual, (number x).compareWith c (text s) = false ∧
      (text s).compareWith c (number x) = false) ∧
    [Comparator.less, .equal, .greater].countP (fun c => (text s).compareWith c (text t)) = 1 ∧
    ((text s).compareWith .less (text t) = true ↔ Text.Precedes s.toList t.toList) ∧
    ((text s).compareWith .less (text t) = true ↔
      Text.Precedes (Archive.utf8 s) (Archive.utf8 t)) ∧
    ((text s).compareWith .equal (text t) = true ↔ s = t) := by
  have hless : (text s).compareWith .less (text t) = true ↔ Text.Precedes s.toList t.toList := by
    rw [← Text.compare_eq_lt_iff, compareWith_eq, Comparator.holds, partialCompare, beq_iff_eq,
      Option.some.injEq]
  refine ⟨(compareWith_mirrored v .less w).symm, (compareWith_mirrored v .lessEqual w).symm,
    fun c hc => compareWith_trans hc hc ?_, ?_, ?_, compareWith_trans (by decide) (by decide) ?_,
    ?_, ?_, hless, hless.trans Text.precedes_utf8_iff.symm, beq_iff_eq⟩
  · simp only [List.mem_cons, List.not_mem_nil, or_false] at hc
    rcases hc with rfl | rfl | rfl <;> decide
  · -- a value is ordered with itself as it is in exchange
    have hswap := partialCompare_swap v v
    rw [compareWith_eq]
    generalize v.partialCompare v = o at hswap ⊢
    rcases o with _ | (_ | _ | _) <;> first | rfl | cases hswap
  · rw [compareWith_eq, compareWith_eq, compareWith_eq, partialCompare_swap v w]
    rcases v.partialCompare w with _ | (_ | _ | _) <;> decide
  · decide
  · intro c hc
    rw [compareWith_eq, compareWith_eq]
    rcases c with _ | _ | _ | _ | _ | _
    case notEqual => exact absurd rfl hc
    all_goals exact ⟨rfl, rfl⟩
  · simp only [compareWith_eq]
    exact Comparator.countP_holds (some (compare s t))

/-- Below both zeros, which are equal, lies the smallest of the numbers, and a text whose first
character has more bytes than another comes behind it. -/
theorem compareWith_ordered_zeros :
    let lowest := number ⟨0xFFF0000000000000⟩
    let negativeZero := number ⟨0x8000000000000000⟩
    let zero := number ⟨0⟩
    lowest.compareWith .less negativeZero = true ∧ lowest.compareWith .less zero = true ∧
      negativeZero.compareWith .equal zero = true ∧
      (text "\uFF5E").compareWith .less (text "😀") = true := by
  intro lowest negativeZero zero
  have h := compareWith_ordered lowest negativeZero zero ⟨0⟩ "\uFF5E" "😀"
  obtain ⟨-, -, -, -, hequal, hless, -, -, hprecedes, -, -⟩ := h
  refine ⟨by decide, hless (by decide) (by decide), hequal.mp ⟨by decide, by decide⟩,
    hprecedes.mpr (.inr ⟨[], _, _, [], [], rfl, rfl, by decide⟩)⟩

end Value

end Verdict
