import Mathlib.Data.List.Basic
import Verdict.Proofs.Json.Entry
/-
The check of entries.

Whether an entry is right can be seen from the entry alone, without a look into its children
(`Entry.Valid`), and so can what is wrong with it (`Entry.Faulty`).  An entry stands for a formula
if all the entries in it are right.  Otherwise the check tells what is wrong with the first of them
that is not, where an entry comes before its children and what is on the left before what is on the
right (`Entry.preorder`).

* `Entry.formula?_of_valid`: what stands for a formula, and which formula that is;
* `Entry.formula?_of_firstFaulty`: the fault that is told;
* `Entry.formula?_decided`: both, as equivalences.
-/
namespace Verdict

namespace Connective

lemma ofKeyword?_eq_some_iff {word : String} {op : Connective} :
    ofKeyword? word = some op ↔ word = op.keyword := by
  constructor
  · intro h
    have hkeyword : (op.keyword == word) = true := by
      rw [ofKeyword?] at h
      simpa using List.find?_some h
    exact (beq_iff_eq.mp hkeyword).symm
  · rintro rfl
    cases op <;> decide

lemma ofKeyword?_eq_none_iff {word : String} :
    ofKeyword? word = none ↔ ∀ op : Connective, word ≠ op.keyword := by
  rw [Option.eq_none_iff_forall_ne_some]
  exact forall_congr' fun op => not_congr ofKeyword?_eq_some_iff

end Connective

namespace Json.Entry

open Connective (ofKeyword?_eq_some_iff ofKeyword?_eq_none_iff)

/-- The entries in an entry, each before those in its children, and what is on the left before
what is on the right. -/
def preorder : Entry → List Entry
  | absent => []
  | node kind value left right => node kind value left right :: (left.preorder ++ right.preorder)

/-- An entry that is right by itself, whatever its children are. -/
inductive Valid : Entry → Prop
  | operand {value : String} (condition : ∃ parts, Condition.split value = .ok parts) :
    Valid (node .operand value absent absent)
  | operator {value : String} {op : Connective} {left right : Entry}
    (keyword : Text.trimmed value = op.keyword) (hasLeft : left.isAbsent = false)
    (hasRight : right.isAbsent = false) : Valid (node .operator value left right)

/-- What is wrong with an entry by itself.  Of several faults it is the first in this order. -/
inductive Faulty : Entry → Fault → Prop
  | unexpectedChild {value : String} {left right : Entry}
    (child : left.isAbsent = false ∨ right.isAbsent = false) :
    Faulty (node .operand value left right) (.unexpectedChild value)
  | malformedCondition {value : String} {error : ConditionError}
    (condition : Condition.split value = .error error) :
    Faulty (node .operand value absent absent) (.malformedCondition error)
  | unknownOperator {value : String} {left right : Entry}
    (keyword : ∀ op : Connective, Text.trimmed value ≠ op.keyword) :
    Faulty (node .operator value left right) (.unknownOperator value)
  | missingLeft {value : String} {op : Connective} {right : Entry}
    (keyword : Text.trimmed value = op.keyword) :
    Faulty (node .operator value absent right) (.missingChild op .left)
  | missingRight {value : String} {op : Connective} {left : Entry}
    (keyword : Text.trimmed value = op.keyword) (hasLeft : left.isAbsent = false) :
    Faulty (node .operator value left absent) (.missingChild op .right)

/-- `fault` is what is wrong with the first of `parts` that is not right. -/
def FirstFaulty (parts : List Entry) (fault : Fault) : Prop :=
  ∃ before part after, parts = before ++ part :: after ∧ (∀ earlier ∈ before, earlier.Valid) ∧
    part.Faulty fault

/-- An entry stands for the formula of the same shape, which has the trimmed values of the
operands as its conditions; where there is no entry, there is no formula. -/
inductive StandsFor : Entry → Option Formula → Prop
  | absent : StandsFor absent none
  | operand {value : String} :
    StandsFor (node .operand value .absent .absent) (some (.leaf (Text.trimmed value)))
  | operator {value : String} {op : Connective} {left right : Entry} {f g : Formula}
    (keyword : Text.trimmed value = op.keyword) (left_standsFor : StandsFor left (some f))
    (right_standsFor : StandsFor right (some g)) :
    StandsFor (node .operator value left right) (some (.join op f g))

/-! ## A single entry -/

/-- An entry is right, or something is wrong with it. -/
lemma valid_or_faulty {e : Entry} (h : e.isAbsent = false) :
    e.Valid ∨ ∃ fault, e.Faulty fault := by
  obtain _ | ⟨kind, value, left, right⟩ := e
  · cases h
  cases kind with
  | operand =>
    cases left with
    | node => exact Or.inr ⟨_, .unexpectedChild (.inl rfl)⟩
    | absent =>
      cases right with
      | node => exact Or.inr ⟨_, .unexpectedChild (.inr rfl)⟩
      | absent =>
        cases hsplit : Condition.split value with
        | ok parts => exact Or.inl (.operand ⟨parts, hsplit⟩)
        | error error => exact Or.inr ⟨_, .malformedCondition hsplit⟩
  | operator =>
    cases hop : Connective.ofKeyword? (Text.trimmed value) with
    | none => exact Or.inr ⟨_, .unknownOperator (ofKeyword?_eq_none_iff.mp hop)⟩
    | some op =>
      have hkeyword := ofKeyword?_eq_some_iff.mp hop
      cases left with
      | absent => exact Or.inr ⟨_, .missingLeft hkeyword⟩
      | node =>
        cases right with
        | absent => exact Or.inr ⟨_, .missingRight hkeyword rfl⟩
        | node => exact Or.inl (.operator hkeyword rfl rfl)

/-- An entry that is not right is not looked into. -/
lemma Faulty.formula?_eq {e : Entry} {fault : Fault} (h : e.Faulty fault) :
    e.formula? = .error fault := by
  cases h with
  | unexpectedChild child =>
    rw [formula?, if_neg]
    rcases child with h | h <;> simp [h]
  | malformedCondition condition => simp [formula?, isAbsent, condition]
  | unknownOperator keyword => simp only [formula?, ofKeyword?_eq_none_iff.mpr keyword]
  | missingLeft keyword => simp [formula?, ofKeyword?_eq_some_iff.mpr keyword, isAbsent]
  | missingRight keyword hasLeft =>
    have hmissing : absent.isAbsent = true := rfl
    simp only [formula?, ofKeyword?_eq_some_iff.mpr keyword, hasLeft, hmissing, Bool.false_eq_true,
      if_false, if_true]

/-- An operator that is right is joined of its children, the left one of which is checked
first. -/
lemma formula?_operator {value : String} {op : Connective} {left right : Entry}
    (keyword : Text.trimmed value = op.keyword) (hasLeft : left.isAbsent = false)
    (hasRight : right.isAbsent = false) :
    (node .operator value left right).formula? =
      (do
        let left? ← left.formula?
        let right? ← right.formula?
        return .join op <$> left? <*> right?) := by
  simp only [formula?, ofKeyword?_eq_some_iff.mpr keyword, hasLeft, hasRight, Bool.false_eq_true,
    if_false]

/-! ## The first fault -/

lemma firstFaulty_cons {part : Entry} {parts : List Entry} {fault : Fault} :
    FirstFaulty (part :: parts) fault ↔
      part.Faulty fault ∨ part.Valid ∧ FirstFaulty parts fault := by
  constructor
  · rintro ⟨before, part', after, hsplit, hbefore, hpart'⟩
    cases before with
    | nil =>
      obtain ⟨rfl, -⟩ : part = part' ∧ parts = after := by simpa using hsplit
      exact Or.inl hpart'
    | cons first before =>
      obtain ⟨rfl, rfl⟩ : part = first ∧ parts = before ++ part' :: after := by simpa using hsplit
      obtain ⟨hfirst, hbefore⟩ := List.forall_mem_cons.mp hbefore
      exact Or.inr ⟨hfirst, before, part', after, rfl, hbefore, hpart'⟩
  · rintro (hpart | ⟨hpart, before, part', after, rfl, hbefore, hpart'⟩)
    · exact ⟨[], part, parts, rfl, by simp, hpart⟩
    · exact ⟨part :: before, part', after, rfl, List.forall_mem_cons.mpr ⟨hpart, hbefore⟩, hpart'⟩

lemma FirstFaulty.of_append {parts parts' : List Entry} {fault : Fault}
    (h : FirstFaulty (parts ++ parts') fault) :
    FirstFaulty parts fault ∨ (∀ part ∈ parts, part.Valid) ∧ FirstFaulty parts' fault := by
  induction parts with
  | nil => exact Or.inr ⟨by simp, h⟩
  | cons part parts ih =>
    rcases firstFaulty_cons.mp h with hpart | ⟨hpart, h⟩
    · exact Or.inl (firstFaulty_cons.mpr (.inl hpart))
    · rcases ih h with h | ⟨hparts, h⟩
      · exact Or.inl (firstFaulty_cons.mpr (.inr ⟨hpart, h⟩))
      · exact Or.inr ⟨List.forall_mem_cons.mpr ⟨hpart, hparts⟩, h⟩

lemma forall_valid_or_firstFaulty {parts : List Entry}
    (h : ∀ part ∈ parts, part.isAbsent = false) :
    (∀ part ∈ parts, part.Valid) ∨ ∃ fault, FirstFaulty parts fault := by
  induction parts with
  | nil => exact Or.inl (by simp)
  | cons part parts ih =>
    obtain ⟨hpart, hparts⟩ := List.forall_mem_cons.mp h
    rcases valid_or_faulty hpart with hvalid | ⟨fault, hfaulty⟩
    · rcases ih hparts with hparts | ⟨fault, hfaulty⟩
      · exact Or.inl (List.forall_mem_cons.mpr ⟨hvalid, hparts⟩)
      · exact Or.inr ⟨fault, firstFaulty_cons.mpr (.inr ⟨hvalid, hfaulty⟩)⟩
    · exact Or.inr ⟨fault, firstFaulty_cons.mpr (.inl hfaulty)⟩

lemma isAbsent_of_mem_preorder {e part : Entry} (h : part ∈ e.preorder) :
    part.isAbsent = false := by
  induction e with
  | absent => cases h
  | node kind value left right ihl ihr =>
    rcases List.mem_cons.mp h with rfl | h
    · rfl
    · rcases List.mem_append.mp h with h | h
      · exact ihl h
      · exact ihr h

/-! ## The entries in an entry -/

lemma StandsFor.exists_formula {e : Entry} {f? : Option Formula} (h : e.StandsFor f?)
    (hpresent : e.isAbsent = false) : ∃ f, f? = some f := by
  cases h with
  | absent => cases hpresent
  | operand => exact ⟨_, rfl⟩
  | operator => exact ⟨_, rfl⟩

/-- If all the entries in it are right, an entry stands for what the check makes of it. -/
theorem formula?_of_valid {e : Entry} (h : ∀ part ∈ e.preorder, part.Valid) :
    ∃ f?, e.formula? = .ok f? ∧ e.StandsFor f? := by
  induction e with
  | absent => exact ⟨none, rfl, .absent⟩
  | node kind value left right ihl ihr =>
    obtain ⟨hself, hchildren⟩ := List.forall_mem_cons.mp h
    obtain ⟨hleft, hright⟩ := List.forall_mem_append.mp hchildren
    cases hself with
    | operand condition =>
      obtain ⟨parts, hparts⟩ := condition
      refine ⟨some (.condition value), ?_, .operand⟩
      simp [formula?, isAbsent, hparts]
    | operator keyword hasLeft hasRight =>
      obtain ⟨f?, hf, hf_standsFor⟩ := ihl hleft
      obtain ⟨g?, hg, hg_standsFor⟩ := ihr hright
      obtain ⟨f, rfl⟩ := hf_standsFor.exists_formula hasLeft
      obtain ⟨g, rfl⟩ := hg_standsFor.exists_formula hasRight
      refine ⟨some (.join _ f g), ?_, .operator keyword hf_standsFor hg_standsFor⟩
      rw [formula?_operator keyword hasLeft hasRight, hf, hg]
      rfl

/-- What is told of an entry is what is wrong with the first entry in it that is not right. -/
theorem formula?_of_firstFaulty {e : Entry} {fault : Fault} (h : FirstFaulty e.preorder fault) :
    e.formula? = .error fault := by
  induction e with
  | absent =>
    obtain ⟨before, part, after, hsplit, -⟩ := h
    simp [preorder] at hsplit
  | node kind value left right ihl ihr =>
    rcases firstFaulty_cons.mp h with hself | ⟨hself, hchildren⟩
    · exact hself.formula?_eq
    · cases hself with
      | operand =>
        -- an operand that is right has no children in which a fault could be
        obtain ⟨before, part, after, hsplit, -⟩ := hchildren
        simp [preorder] at hsplit
      | operator keyword hasLeft hasRight =>
        rw [formula?_operator keyword hasLeft hasRight]
        rcases hchildren.of_append with hfault | ⟨hleft, hfault⟩
        · rw [ihl hfault]
          rfl
        · obtain ⟨f?, hf, -⟩ := formula?_of_valid hleft
          rw [hf, ihr hfault]
          rfl

lemma forall_valid_or_firstFaulty_preorder (e : Entry) :
    (∀ part ∈ e.preorder, part.Valid) ∨ ∃ fault, FirstFaulty e.preorder fault :=
  forall_valid_or_firstFaulty fun _ hpart => isAbsent_of_mem_preorder hpart

lemma formula?_eq_ok_iff {e : Entry} :
    (∃ f?, e.formula? = .ok f?) ↔ ∀ part ∈ e.preorder, part.Valid := by
  constructor
  · rintro ⟨f?, hf⟩
    rcases e.forall_valid_or_firstFaulty_preorder with hvalid | ⟨fault, hfaulty⟩
    · exact hvalid
    · rw [formula?_of_firstFaulty hfaulty] at hf
      cases hf
  · intro hvalid
    obtain ⟨f?, hf, -⟩ := formula?_of_valid hvalid
    exact ⟨f?, hf⟩

lemma formula?_eq_error_iff {e : Entry} {fault : Fault} :
    e.formula? = .error fault ↔ FirstFaulty e.preorder fault := by
  refine ⟨?_, formula?_of_firstFaulty⟩
  intro h
  rcases e.forall_valid_or_firstFaulty_preorder with hvalid | ⟨fault', hfaulty⟩
  · obtain ⟨f?, hf⟩ := formula?_eq_ok_iff.mpr hvalid
    rw [hf] at h
    cases h
  · obtain rfl : fault' = fault := by simpa [formula?_of_firstFaulty hfaulty] using h
    exact hfaulty

/-- **The check accepts what is right and tells the first fault.**  An entry is accepted if and
only if every entry in it is right, and then stands for the formula of its shape, with the trimmed
values of its operands as conditions.  It is refused for a fault if and only if that is what is
wrong with the first entry in it that is not right. -/
theorem formula?_decided (e : Entry) :
    ((∃ f?, e.formula? = .ok f?) ↔ ∀ part ∈ e.preorder, part.Valid) ∧
    (∀ f?, e.formula? = .ok f? → e.StandsFor f?) ∧
    ∀ fault, e.formula? = .error fault ↔
      ∃ before part after, e.preorder = before ++ part :: after ∧
        (∀ earlier ∈ before, earlier.Valid) ∧ part.Faulty fault := by
  refine ⟨formula?_eq_ok_iff, ?_, fun fault => formula?_eq_error_iff⟩
  intro f? h
  obtain ⟨g?, hg, hg_standsFor⟩ := formula?_of_valid (formula?_eq_ok_iff.mp ⟨f?, h⟩)
  obtain rfl : g? = f? := by simpa [hg] using h
  exact hg_standsFor

/-- The condition on the left comes before the unknown operator on the right. -/
example : (node .operator " AND " (node .operand "a" absent absent)
    (node .operator "XOR" absent absent)).formula? =
      .error (.malformedCondition (.invalidFormat "a")) := by
  decide

end Json.Entry
end Verdict
