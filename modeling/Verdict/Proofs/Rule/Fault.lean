import Mathlib.Data.List.Induction
import Verdict.Proofs.Rule.Turn
/-
Which fault stops an assembly.

The tokens alone tell it.  A condition is at fault that cannot be split, and a closing
parenthesis that outnumbers the opening ones; the first token at fault stops the assembly
(`FirstFault`), and where no token is at fault, it can only be stopped by a group that is
never closed.  Connectives do not count (`firstFault_bare`): wherever they stand, what waits
mirrors the groups that are open (`Progress`).

Formulas have no more levels than conditions.  So an assembly that may use as many levels as
there are operands is not stopped for a formula that is too deep (`assemble_outcome`).
-/
namespace Verdict.Rule

namespace Token

/-- Why the token cannot be read behind the tokens `before`, if it cannot. -/
def faultBehind? (before : List Token) : Token → Option Fault
  | operand text =>
    match Condition.split text with
    | .ok _ => none
    | .error error => some (.malformedCondition error)
  | closing =>
    -- this parenthesis counts, too
    if before.count opening < before.count closing + 1 then some .unbalancedParentheses else none
  | opening => none
  | connective _ => none

/-- No token is at fault. -/
def Faultless (ts : List Token) : Prop :=
  ∀ before t after, ts = before ++ t :: after → faultBehind? before t = none

/-- The first token at fault is so for `fault`. -/
def FirstFault (ts : List Token) (fault : Fault) : Prop :=
  ∃ before t after, ts = before ++ t :: after ∧ Faultless before ∧
    faultBehind? before t = some fault

lemma faultless_nil : Faultless [] := by
  intro before t after h
  simp at h

lemma Faultless.snoc {ts : List Token} {t : Token} (h : Faultless ts)
    (ht : faultBehind? ts t = none) : Faultless (ts ++ [t]) := by
  intro before u after hsplit
  rcases List.eq_nil_or_concat after with rfl | ⟨after, last, rfl⟩
  · obtain ⟨rfl, rfl⟩ : ts = before ∧ t = u := by simpa using List.append_inj' hsplit rfl
    exact ht
  · have hsplit' : ts ++ [t] = (before ++ u :: after) ++ [last] := by simpa using hsplit
    obtain ⟨hts, -⟩ := List.append_inj' hsplit' rfl
    exact h before u after hts

lemma faultless_iff_forall_fin {ts : List Token} :
    Faultless ts ↔ ∀ i : Fin ts.length, faultBehind? (ts.take i) ts[i] = none := by
  constructor
  · intro h i
    refine h (ts.take i) ts[i] (ts.drop (i + 1)) ?_
    rw [Fin.getElem_fin, List.getElem_cons_drop, List.take_append_drop]
  · rintro h before t after rfl
    have ht := h ⟨before.length, by simp⟩
    simpa using ht

instance (ts : List Token) : Decidable (Faultless ts) :=
  decidable_of_iff' _ faultless_iff_forall_fin

lemma faultless_or_firstFault (ts : List Token) : Faultless ts ∨ ∃ fault, FirstFault ts fault := by
  induction ts using List.reverseRecOn with
  | nil => exact Or.inl faultless_nil
  | append_singleton ts t ih =>
    rcases ih with h | ⟨fault, before, u, after, rfl, hbefore, hu⟩
    · cases ht : faultBehind? ts t with
      | none => exact Or.inl (h.snoc ht)
      | some fault => exact Or.inr ⟨fault, ts, t, [], rfl, h, ht⟩
    · exact Or.inr ⟨fault, before, u, after ++ [t], by simp, hbefore, hu⟩

lemma FirstFault.not_faultless {ts : List Token} {fault : Fault} (h : FirstFault ts fault) :
    ¬ Faultless ts := by
  obtain ⟨before, t, after, rfl, -, ht⟩ := h
  intro hfaultless
  rw [hfaultless before t after rfl] at ht
  cases ht

lemma FirstFault.ne_tooDeep {ts : List Token} {fault : Fault} (h : FirstFault ts fault) :
    fault ≠ .tooDeep := by
  obtain ⟨before, t, after, rfl, -, ht⟩ := h
  rintro rfl
  cases t with
  | operand text =>
    rw [faultBehind?] at ht
    split at ht <;> cases ht
  | closing =>
    rw [faultBehind?] at ht
    split at ht <;> cases ht
  | _ => cases ht

/-- A list without fault does not reach beyond a token at fault. -/
lemma Faultless.length_le {before after before' after' : List Token} {t t' : Token} {fault : Fault}
    (h : Faultless before') (ht : faultBehind? before t = some fault)
    (hsplit : before ++ t :: after = before' ++ t' :: after') :
    before'.length ≤ before.length := by
  rcases List.append_eq_append_iff.mp hsplit with ⟨mid, rfl, hmid⟩ | ⟨mid, rfl, -⟩
  · cases mid with
    | nil => simp
    | cons u mid =>
      obtain ⟨rfl, -⟩ : t = u ∧ after = mid ++ t' :: after' := by simpa using hmid
      rw [h before t mid rfl] at ht
      cases ht
  · simp

/-- There is only one first fault. -/
lemma FirstFault.unique {ts : List Token} {fault fault' : Fault} (h : FirstFault ts fault)
    (h' : FirstFault ts fault') : fault = fault' := by
  obtain ⟨before, t, after, rfl, hbefore, ht⟩ := h
  obtain ⟨before', t', after', hsplit, hbefore', ht'⟩ := h'
  have hlength : before.length = before'.length :=
    Nat.le_antisymm (hbefore.length_le ht' hsplit.symm) (hbefore'.length_le ht hsplit)
  obtain ⟨rfl, htail⟩ := List.append_inj hsplit hlength
  obtain ⟨rfl, -⟩ : t = t' ∧ after = after' := by simpa using htail
  rw [ht, Option.some.injEq] at ht'
  exact ht'

/-! ## Without the connectives -/

/-- The token is a connective. -/
def isConnective : Token → Bool
  | connective _ => true
  | _ => false

/-- The operands and the parentheses of `ts`. -/
def bare (ts : List Token) : List Token := ts.filter (!·.isConnective)

lemma count_bare {t : Token} (ht : t.isConnective = false) (ts : List Token) :
    (bare ts).count t = ts.count t :=
  List.count_filter (by simp [ht])

lemma operands_bare (ts : List Token) : operands (bare ts) = operands ts := by
  induction ts with
  | nil => rfl
  | cons t ts ih => cases t <;> simpa [bare, isConnective] using ih

lemma faultBehind?_bare (before : List Token) (t : Token) :
    faultBehind? (bare before) t = faultBehind? before t := by
  cases t with
  | closing =>
    have hopening : (bare before).count opening = before.count opening := count_bare rfl before
    have hclosing : (bare before).count closing = before.count closing := count_bare rfl before
    rw [faultBehind?, faultBehind?, hopening, hclosing]
  | _ => rfl

lemma isConnective_of_fault {before : List Token} {t : Token} {fault : Fault}
    (h : faultBehind? before t = some fault) : t.isConnective = false := by
  cases t with
  | connective op => cases h
  | _ => rfl

lemma bare_append_cons (before after : List Token) {t : Token} (ht : t.isConnective = false) :
    bare (before ++ t :: after) = bare before ++ t :: bare after := by
  simp [bare, ht]

/-- A token of the bare list is one of the list. -/
lemma exists_of_bare {ts before' after' : List Token} {t : Token}
    (h : bare ts = before' ++ t :: after') :
    ∃ before after, ts = before ++ t :: after ∧ bare before = before' := by
  obtain ⟨us, vs, rfl, hus, hvs⟩ := List.filter_eq_append_iff.mp h
  obtain ⟨skipped, after, rfl, hskipped, -, -⟩ := List.filter_eq_cons_iff.mp hvs
  refine ⟨us ++ skipped, after, by simp, ?_⟩
  have hnone : bare skipped = [] := List.filter_eq_nil_iff.mpr hskipped
  rw [bare, List.filter_append, hus]
  exact (congrArg (before' ++ ·) hnone).trans (List.append_nil before')

lemma faultless_bare {ts : List Token} : Faultless (bare ts) ↔ Faultless ts := by
  constructor
  · rintro h before t after rfl
    cases ht : faultBehind? before t with
    | none => rfl
    | some fault =>
      rw [bare_append_cons before after (isConnective_of_fault ht)] at h
      rw [← ht, ← faultBehind?_bare]
      exact h _ _ _ rfl
  · intro h before' t after' hsplit
    obtain ⟨before, after, rfl, rfl⟩ := exists_of_bare hsplit
    rw [faultBehind?_bare]
    exact h before t after rfl

lemma FirstFault.bare {ts : List Token} {fault : Fault} (h : FirstFault ts fault) :
    FirstFault (bare ts) fault := by
  obtain ⟨before, t, after, rfl, hbefore, ht⟩ := h
  refine ⟨Token.bare before, t, Token.bare after, ?_, faultless_bare.mpr hbefore, ?_⟩
  · exact bare_append_cons before after (isConnective_of_fault ht)
  · rw [faultBehind?_bare, ht]

/-- Connectives have no part in the first fault. -/
theorem firstFault_bare {ts : List Token} {fault : Fault} :
    FirstFault (bare ts) fault ↔ FirstFault ts fault := by
  constructor
  · intro h
    rcases faultless_or_firstFault ts with hts | ⟨fault', hts⟩
    · exact absurd (faultless_bare.mpr hts) h.not_faultless
    · rwa [h.unique hts.bare]
  · exact FirstFault.bare

end Token

open Token (Faultless FirstFault faultBehind? operands)

namespace Assembly

variable {limit : Nat}

/-- The tokens `ts` have been read up to the point `x` without a fault, and the groups that
are open there are those that wait. -/
def Progress (ts : List Token) (x : Assembly × List Token) : Prop :=
  ∃ before, ts = before ++ x.2 ∧ Faultless before ∧
    x.1.pending.count .group + before.count .closing = before.count .opening

lemma Progress.move {ts : List Token} {x y : Assembly × List Token} (hxy : Move limit x y)
    (h : Progress ts x) : Progress ts y := by
  obtain ⟨before, rfl, hfaultless, hopen⟩ := h
  cases hxy with
  | takeBack _ => exact ⟨before, rfl, hfaultless, by simpa using hopen⟩
  | @operand text parts pending formulas discarded ts hs =>
    have hnone : faultBehind? before (.operand text) = none := by simp [faultBehind?, hs]
    exact ⟨before ++ [.operand text], by simp, hfaultless.snoc hnone, by simpa using hopen⟩
  | opening =>
    refine ⟨before ++ [.opening], by simp, hfaultless.snoc rfl, ?_⟩
    simp only [List.count_append, List.count_cons_self, List.count_singleton, beq_iff_eq,
      reduceCtorEq, if_false, List.count_nil] at hopen ⊢
    omega
  | closing =>
    simp only [List.count_cons_self] at hopen
    have hnone : faultBehind? before .closing = none := if_neg (by omega)
    refine ⟨before ++ [.closing], by simp, hfaultless.snoc hnone, ?_⟩
    simp only [List.count_append, List.count_singleton, beq_iff_eq, reduceCtorEq, if_false, if_true]
    omega
  | @connective op pending b ts =>
    exact ⟨before ++ [.connective op], by simp, hfaultless.snoc rfl, by simpa using hopen⟩

lemma progress_start (ts : List Token) : Progress ts (start, ts) :=
  ⟨[], rfl, Token.faultless_nil, rfl⟩

/-- The last two formulas that stand side by side have fewer levels than there are
conditions. -/
lemma depth_lt_of_conditions {right left : Sized} {rest : List Sized}
    {discarded : List Connective} (h : WellSized limit ⟨right :: left :: rest, discarded⟩) :
    max left.depth right.depth <
      (Built.conditions ⟨right :: left :: rest, discarded⟩).length := by
  have hright : right.depth = right.formula.depth := (h right (by simp)).1
  have hleft : left.depth = left.formula.depth := (h left (by simp)).1
  have hdepthr := right.formula.depth_le_length_conditions
  have hdepthl := left.formula.depth_le_length_conditions
  have hposr := right.formula.one_le_length_conditions
  have hposl := left.formula.one_le_length_conditions
  rw [Built.conditions_cons, Built.conditions_cons, List.length_append, List.length_append,
    hright, hleft]
  omega

/-- With a level for every operand, a run is not stuck at a formula that is too deep. -/
lemma Stuck.ne_tooDeep {ts : List Token} {x : Assembly × List Token} {fault : Fault}
    (hlimit : (operands ts).length ≤ limit)
    (hsized : WellSized limit x.1.built)
    (hconditions : x.1.built.conditions ++ operands x.2 = operands ts)
    (h : Stuck limit x fault) : fault ≠ .tooDeep := by
  cases h with
  | tooDeep _ hdeep =>
    have hlt := depth_lt_of_conditions hsized
    rw [← hconditions, List.length_append] at hlimit
    dsimp only at hlimit
    omega
  | _ => simp

end Assembly

/-- How an assembly ends that has a level for every operand: at the first fault, or, where
there is none, at a group that is never closed, or with formulas. -/
theorem assemble_outcome {limit : Nat} {ts : List Token} (hone : 1 ≤ limit)
    (hlimit : (operands ts).length ≤ limit) :
    (∃ fault discarded, FirstFault ts fault ∧ assemble limit ts = .error ⟨fault, discarded⟩) ∨
      (Faultless ts ∧ ts.count .closing < ts.count .opening ∧
        ∃ discarded, assemble limit ts = .error ⟨.unbalancedParentheses, discarded⟩) ∨
      (Faultless ts ∧ ts.count .closing = ts.count .opening ∧ ∃ b, assemble limit ts = .ok b) := by
  obtain ⟨x, hturns, hend⟩ := Assembly.exists_turns limit (.start, ts)
  have hrun : assemble limit ts = x.1.run limit x.2 := hturns.run_eq
  -- what the turns have kept
  obtain ⟨before, hts, hfaultless, hopen⟩ : Assembly.Progress ts x :=
    hturns.keeps (fun _ _ => Assembly.Progress.move) (Assembly.progress_start ts)
  have hsized : Assembly.WellSized limit x.1.built := hturns.wellSized hone
  have hconditions := hturns.conditions_eq
  rcases hend with ⟨b, rfl⟩ | ⟨fault, hstuck⟩
  · obtain rfl : ts = before := by simpa using hts
    exact Or.inr (Or.inr ⟨hfaultless, by simpa using hopen, b, hrun⟩)
  · have hdeep := hstuck.ne_tooDeep hlimit hsized hconditions
    rw [hstuck.run_eq] at hrun
    cases hstuck with
    | condition hs =>
      exact Or.inl ⟨_, _, ⟨before, _, _, hts, hfaultless, by simp [faultBehind?, hs]⟩, hrun⟩
    | unopened =>
      have hmore : before.count Token.opening < before.count Token.closing + 1 := by
        simp only [List.count_nil] at hopen
        omega
      exact Or.inl ⟨_, _, ⟨before, _, _, hts, hfaultless, if_pos hmore⟩, hrun⟩
    | unclosed =>
      obtain rfl : ts = before := by simpa using hts
      simp only [List.count_cons_self] at hopen
      exact Or.inr (Or.inl ⟨hfaultless, by omega, _, hrun⟩)
    | tooDeep _ _ => exact absurd rfl hdeep

end Verdict.Rule
