import Mathlib.Algebra.GroupWithZero.Nat
import Mathlib.Data.List.Forall2
import Verdict.Combination
import Verdict.Evaluation
import Verdict.Proofs.Engine
/-
What a combination means.

Reading the texts one after the other, counting along, and joining with an eye on the
depth come to three plain statements:

* `Engine.combine_eq`: all texts are read, or the first error is the outcome; the rules are
  joined under the connective that is counted more often (`Engine.dominant`);
* `Engine.joinAll_eq`: the join is the left fold, if that keeps to the limit;
* `Rule.evaluate_joinLeft`: the left fold is true if all, or some, of its formulas are.

So a combination fails at the first text that is no rule, or because the rules come to
something too deep (`Engine.combine_eq_error_iff`).
-/
namespace Verdict

namespace Connective

/-- The number of places of `cs` at which the keyword is written.  No two of them overlap. -/
def placesIn (op : Connective) (cs : List Char) : Nat :=
  cs.tails.countP (op.keyword.toList.isPrefixOf ·)

@[simp] lemma placesIn_nil {op : Connective} : op.placesIn [] = 0 := by
  cases op <;> rfl

lemma placesIn_cons {op : Connective} (c : Char) (cs : List Char) :
    op.placesIn (c :: cs) =
      op.placesIn cs + if op.keyword.toList <+: c :: cs then 1 else 0 := by
  simp only [placesIn, List.tails, List.countP_cons, List.isPrefixOf_iff_prefix]

/-- The number of places of `text` at which the keyword is written. -/
def timesIn (op : Connective) (text : String) : Nat := op.placesIn text.toList

/-- The truth of any number of joined formulas. -/
def applyAll : Connective → List Bool → Bool
  | and, truths => truths.all id
  | or, truths => truths.any id

lemma applyAll_cons (op : Connective) (b : Bool) (bs : List Bool) :
    op.applyAll (b :: bs) = op.apply b (op.applyAll bs) := by
  cases op <;> rfl

lemma apply_assoc (op : Connective) (a b c : Bool) :
    op.apply (op.apply a b) c = op.apply a (op.apply b c) := by
  cases op
  · exact Bool.and_assoc a b c
  · exact Bool.or_assoc a b c

/-- The keyword does not start again before it ends. -/
lemma keyword_not_prefix_drop {op : Connective} {c : Char} {cs : List Char}
    (h : op.keyword.toList <+: c :: cs) {i : Nat} (hi : i < op.keyword.toList.length - 1) :
    ¬ op.keyword.toList <+: cs.drop i := by
  obtain ⟨rest, hrest⟩ := h
  cases op with
  | and =>
    obtain rfl : cs = 'N' :: 'D' :: rest := (List.cons.inj hrest).2.symm
    rcases Nat.le_one_iff_eq_zero_or_eq_one.mp (Nat.lt_succ_iff.mp hi) with rfl | rfl
    · simp [keyword]
    · simp [keyword]
  | or =>
    obtain rfl : cs = 'R' :: rest := (List.cons.inj hrest).2.symm
    obtain rfl : i = 0 := Nat.lt_one_iff.mp hi
    simp [keyword]

end Connective

/-! ## Counting -/

namespace Tally

/-- No place is missed by going on behind each find. -/
lemma occurrences_eq (op : Connective) {skip : Nat} (found : Nat) {cs : List Char}
    (hskip : ∀ i < skip, ¬ op.keyword.toList <+: cs.drop i) :
    occurrences op.keyword.toList skip found cs = found + op.placesIn cs := by
  induction cs generalizing skip found with
  | nil => rw [occurrences, Connective.placesIn_nil, Nat.add_zero]
  | cons c cs ih =>
    rw [Connective.placesIn_cons]
    cases skip with
    | succ skip =>
      have hhead := hskip 0 (Nat.zero_lt_succ skip)
      rw [List.drop_zero] at hhead
      rw [occurrences, ih found fun i hi => hskip (i + 1) (by omega), if_neg hhead, Nat.add_zero]
    | zero =>
      by_cases hhead : op.keyword.toList.isPrefixOf (c :: cs) = true
      · have hkeyword := List.isPrefixOf_iff_prefix.mp hhead
        rw [occurrences, if_pos hhead, if_pos hkeyword,
          ih (found + 1) fun i hi => Connective.keyword_not_prefix_drop hkeyword hi]
        omega
      · rw [occurrences, if_neg hhead, if_neg (mt List.isPrefixOf_iff_prefix.mpr hhead),
          ih found fun i hi => absurd hi (Nat.not_lt_zero i)]
        omega

lemma ofText_eq (text : String) :
    ofText text = ⟨Connective.and.timesIn text, Connective.or.timesIn text⟩ := by
  simp only [ofText, Connective.timesIn]
  rw [occurrences_eq .and 0 fun i hi => absurd hi (Nat.not_lt_zero i),
    occurrences_eq .or 0 fun i hi => absurd hi (Nat.not_lt_zero i), Nat.zero_add, Nat.zero_add]

lemma foldl_add (ts : List Tally) (t : Tally) :
    ts.foldl add t = ⟨t.ands + (ts.map ands).sum, t.ors + (ts.map ors).sum⟩ := by
  induction ts generalizing t with
  | nil => rfl
  | cons u ts ih => simp [ih, add, Nat.add_assoc]

end Tally

/-! ## Joins -/

/-- The connectives of the joins, from left to right. -/
def Formula.connectives : Formula → List Connective
  | leaf _ => []
  | join op left right => left.connectives ++ op :: right.connectives

lemma Formula.count_eq (op : Connective) (f : Formula) :
    f.count op = f.connectives.count op := by
  induction f with
  | leaf text => rfl
  | join op' left right ihl ihr =>
    rw [count, connectives, List.count_append, List.count_cons, ihl, ihr]
    simp only [beq_iff_eq]
    omega

/-- The connectives of the joins, from left to right. -/
def Rule.connectives (r : Rule) : List Connective := r.formula?.elim [] Formula.connectives

lemma Rule.count_eq (op : Connective) (r : Rule) : r.count op = r.connectives.count op := by
  obtain ⟨_ | f⟩ := r
  · rfl
  · exact f.count_eq op

/-! ## Left folds -/

/-- `f` is a part of a formula. -/
inductive Formula.PartOf (f : Formula) : Formula → Prop
  | whole : PartOf f f
  | left {op : Connective} {left right : Formula} : PartOf f left → PartOf f (.join op left right)
  | right {op : Connective} {left right : Formula} : PartOf f right → PartOf f (.join op left right)

namespace Formula

variable (op : Connective)

lemma partOf_foldl {f acc : Formula} (hacc : f.PartOf acc) (fs : List Formula) :
    f.PartOf (fs.foldl (join op) acc) := by
  induction fs generalizing acc with
  | nil => exact hacc
  | cons g fs ih => exact ih hacc.left

lemma partOf_foldl_of_mem {f : Formula} {fs : List Formula} (h : f ∈ fs) (acc : Formula) :
    f.PartOf (fs.foldl (join op) acc) := by
  induction fs generalizing acc with
  | nil => simp at h
  | cons g fs ih =>
    rcases List.mem_cons.mp h with rfl | h
    · exact partOf_foldl op (.right .whole) fs
    · exact ih h (join op acc g)

lemma depth_le_foldl (acc : Formula) (fs : List Formula) :
    acc.depth ≤ (fs.foldl (join op) acc).depth := by
  induction fs generalizing acc with
  | nil => exact Nat.le_refl _
  | cons g fs ih =>
    have hjoin : acc.depth ≤ (join op acc g).depth := by simp only [depth]; omega
    exact hjoin.trans (ih (join op acc g))

lemma conditions_foldl (acc : Formula) (fs : List Formula) :
    (fs.foldl (join op) acc).conditions = acc.conditions ++ fs.flatMap conditions := by
  induction fs generalizing acc with
  | nil => simp
  | cons g fs ih => simp [ih, conditions]

lemma evaluate_foldl (ctx : Context) (acc : Formula) (fs : List Formula) :
    (fs.foldl (join op) acc).evaluate ctx =
      op.applyAll (acc.evaluate ctx :: fs.map (evaluate ctx)) := by
  induction fs generalizing acc with
  | nil => cases op <;> simp [Connective.applyAll]
  | cons g fs ih =>
    rw [List.foldl_cons, ih, List.map_cons]
    simp only [Connective.applyAll_cons, evaluate, Connective.apply_assoc]

end Formula

namespace Rule

/-- The formulas, joined from left to right. -/
def joinLeft (op : Connective) : List Formula → Rule
  | [] => .empty
  | f :: fs => .ofFormula (fs.foldl (.join op) f)

lemma conditions_joinLeft (op : Connective) (fs : List Formula) :
    (joinLeft op fs).conditions = fs.flatMap Formula.conditions := by
  cases fs with
  | nil => rfl
  | cons f fs => exact Formula.conditions_foldl op f fs

lemma exists_partOf_joinLeft (op : Connective) {f : Formula} {fs : List Formula} (h : f ∈ fs) :
    ∃ g, joinLeft op fs = .ofFormula g ∧ f.PartOf g := by
  cases fs with
  | nil => simp at h
  | cons g fs =>
    refine ⟨_, rfl, ?_⟩
    rcases List.mem_cons.mp h with rfl | h
    · exact Formula.partOf_foldl op .whole fs
    · exact Formula.partOf_foldl_of_mem op h g

/-- A left fold is true if all, or some, of its formulas are; the fold of none is false. -/
lemma evaluate_joinLeft {op : Connective} {fs : List Formula} (h : op = .and → fs ≠ [])
    (ctx : Context) :
    (joinLeft op fs).evaluate ctx = op.applyAll (fs.map (Formula.evaluate ctx)) := by
  cases fs with
  | nil =>
    cases op with
    | and => exact absurd rfl (h rfl)
    | or => rfl
  | cons f fs => exact Formula.evaluate_foldl op ctx f fs

/-- What rules come to under `op`: nothing if one of them is empty and all have to be true,
else the left fold of those that are not. -/
def joined (op : Connective) (rules : List Rule) : Rule :=
  if op = .and ∧ .empty ∈ rules then .empty else joinLeft op (rules.filterMap formula?)

lemma joined_of_empty {op : Connective} {rules : List Rule} (h : op = .and ∧ .empty ∈ rules) :
    joined op rules = .empty :=
  if_pos h

lemma joined_of_not_empty {op : Connective} {rules : List Rule}
    (h : ¬ (op = .and ∧ .empty ∈ rules)) :
    joined op rules = joinLeft op (rules.filterMap formula?) :=
  if_neg h

/-- What rules come to is deep only where it is their left fold. -/
lemma lt_depth_joined_iff {op : Connective} {rules : List Rule} {limit : Nat} :
    limit < (joined op rules).depth ↔
      ¬ (op = .and ∧ .empty ∈ rules) ∧ limit < (joinLeft op (rules.filterMap formula?)).depth := by
  by_cases hempty : op = .and ∧ .empty ∈ rules
  · rw [joined_of_empty hempty]
    exact ⟨fun h => absurd h (Nat.not_lt_zero _), fun h => absurd hempty h.1⟩
  · rw [joined_of_not_empty hempty, and_iff_right hempty]

lemma mem_filterMap_formula? {rules : List Rule} {f : Formula} :
    f ∈ rules.filterMap formula? ↔ ofFormula f ∈ rules := by
  rw [List.mem_filterMap]
  constructor
  · rintro ⟨⟨g?⟩, hmem, rfl⟩
    exact hmem
  · intro h
    exact ⟨ofFormula f, h, rfl⟩

/-- Joining rules makes no new conditions. -/
lemma exists_mem_of_mem_conditions_joined {op : Connective} {rules : List Rule} {text : String}
    (h : text ∈ (joined op rules).conditions) :
    ∃ f, ofFormula f ∈ rules ∧ text ∈ f.conditions := by
  by_cases hempty : op = .and ∧ .empty ∈ rules
  · rw [joined_of_empty hempty] at h
    simp [conditions, empty] at h
  · rw [joined_of_not_empty hempty, conditions_joinLeft, List.mem_flatMap] at h
    obtain ⟨f, hf, htext⟩ := h
    exact ⟨f, mem_filterMap_formula?.mp hf, htext⟩

lemma any_isEmpty {rules : List Rule} : rules.any isEmpty = true ↔ empty ∈ rules := by
  rw [List.any_eq_true]
  constructor
  · rintro ⟨⟨f?⟩, hmem, hempty⟩
    cases f? with
    | none => exact hmem
    | some f => simp [isEmpty] at hempty
  · intro h
    exact ⟨empty, h, rfl⟩

/-- Empty rules are false, so that they do not count where some rule has to be true. -/
lemma any_evaluate (ctx : Context) (rules : List Rule) :
    rules.any (·.evaluate ctx) = (rules.filterMap formula?).any (Formula.evaluate ctx) := by
  induction rules with
  | nil => rfl
  | cons r rules ih =>
    obtain ⟨_ | f⟩ := r
    · simpa [evaluate] using ih
    · simpa [evaluate] using congrArg (f.evaluate ctx || ·) ih

lemma all_evaluate {rules : List Rule} (h : empty ∉ rules) (ctx : Context) :
    rules.all (·.evaluate ctx) = (rules.filterMap formula?).all (Formula.evaluate ctx) := by
  induction rules with
  | nil => rfl
  | cons r rules ih =>
    rw [List.mem_cons, not_or] at h
    obtain ⟨_ | f⟩ := r
    · exact absurd rfl h.1
    · simpa [evaluate] using congrArg (f.evaluate ctx && ·) (ih h.2)

lemma applyAll_evaluate {op : Connective} {rules : List Rule} (h : ¬ (op = .and ∧ empty ∈ rules))
    (ctx : Context) :
    op.applyAll (rules.map (·.evaluate ctx)) =
      op.applyAll ((rules.filterMap formula?).map (Formula.evaluate ctx)) := by
  cases op with
  | and =>
    have hall := all_evaluate (fun hempty => h ⟨rfl, hempty⟩) ctx
    simpa [Connective.applyAll, List.all_map] using hall
  | or => simpa [Connective.applyAll, List.any_map] using any_evaluate ctx rules

/-- Joined rules are true if all, or some, of them are. -/
theorem evaluate_joined (op : Connective) {rules : List Rule} (h : rules ≠ []) (ctx : Context) :
    (joined op rules).evaluate ctx = op.applyAll (rules.map (·.evaluate ctx)) := by
  by_cases hempty : op = .and ∧ .empty ∈ rules
  · obtain ⟨rfl, hmem⟩ := hempty
    have hfalse : (rules.map (·.evaluate ctx)).all id = false := by
      rw [List.all_eq_false]
      exact ⟨false, List.mem_map.mpr ⟨empty, hmem, rfl⟩, by simp⟩
    rw [joined_of_empty ⟨rfl, hmem⟩]
    exact hfalse.symm
  · rw [joined_of_not_empty hempty, applyAll_evaluate hempty, evaluate_joinLeft]
    rintro rfl hnil
    obtain ⟨r, hr⟩ := List.exists_mem_of_ne_nil rules h
    obtain ⟨_ | f⟩ := r
    · exact hempty ⟨rfl, hr⟩
    · have hf := mem_filterMap_formula?.mpr hr
      simp [hnil] at hf

end Rule

namespace Engine

/-- How often `op` is counted in rules that were read from `texts`: the places of its keyword, or
the joins under it. -/
def total (e : Engine) (op : Connective) (texts : List String) (rules : List Rule) : Nat :=
  match e.counting with
  | .textual => (texts.map op.timesIn).sum
  | .parsed => (rules.map (·.connectives.count op)).sum

/-- The connective that is counted more often, AND where both are counted equally often. -/
def dominant (e : Engine) (texts : List String) (rules : List Rule) : Connective :=
  if e.total .or texts rules ≤ e.total .and texts rules then .and else .or

variable (e : Engine)

lemma total_eq {op : Connective} {texts : List String} {rules : List Rule}
    (h : texts.length = rules.length) :
    e.total op texts rules =
      (List.zipWith (fun text rule =>
        match e.counting with
        | .textual => op.timesIn text
        | .parsed => rule.connectives.count op) texts rules).sum := by
  rw [total, ← List.map_uncurry_zip_eq_zipWith]
  cases e.counting with
  | textual =>
    conv_lhs => rw [← List.map_fst_zip h.le, List.map_map]
    rfl
  | parsed =>
    conv_lhs => rw [← List.map_snd_zip h.ge, List.map_map]
    rfl

/-- Counting along the way comes to the two totals. -/
lemma foldl_tallyOf {texts : List String} {rules : List Rule} (h : texts.length = rules.length) :
    (List.zipWith e.tallyOf texts rules).foldl Tally.add ⟨0, 0⟩ =
      ⟨e.total .and texts rules, e.total .or texts rules⟩ := by
  rw [Tally.foldl_add, List.map_zipWith, List.map_zipWith, e.total_eq h, e.total_eq h,
    Nat.zero_add, Nat.zero_add]
  simp only [tallyOf, Tally.ofText_eq, Tally.ofRule, Rule.count_eq]
  cases e.counting <;> rfl

/-- The rules of all texts, or the first error. -/
lemma readAll_snd (done : List Reading) (rules : List Rule) (texts : List String) :
    (e.readAll done rules texts).2 = (rules.reverse ++ ·) <$> texts.mapM e.parse := by
  induction texts generalizing done rules with
  | nil => simp [readAll]; rfl
  | cons text texts ih =>
    rw [readAll, List.mapM_cons]
    cases hread : (e.read text).outcome with
    | error error =>
      have hparse : e.parse text = .error error := hread
      rw [hparse]
      rfl
    | ok rule =>
      have hparse : e.parse text = .ok rule := hread
      rw [hparse]
      simp only [ih]
      cases texts.mapM e.parse with
      | error error => rfl
      | ok rules' =>
        refine congrArg Except.ok ?_
        simp

lemma mapM_eq_ok_iff {texts : List String} {rules : List Rule} :
    texts.mapM e.parse = .ok rules ↔
      List.Forall₂ (fun text rule => e.parse text = .ok rule) texts rules := by
  induction texts generalizing rules with
  | nil =>
    rw [List.mapM_nil, List.forall₂_nil_left_iff]
    constructor
    · intro h
      exact (Except.ok.inj h).symm
    · rintro rfl
      rfl
  | cons text texts ih =>
    rw [List.mapM_cons, List.forall₂_cons_left_iff]
    constructor
    · intro h
      cases hparse : e.parse text with
      | error error =>
        rw [hparse] at h
        cases h
      | ok rule =>
        cases hrest : texts.mapM e.parse with
        | error error =>
          rw [hparse, hrest] at h
          cases h
        | ok rules' =>
          rw [hparse, hrest] at h
          exact ⟨rule, rules', rfl, ih.mp hrest, (Except.ok.inj h).symm⟩
    · rintro ⟨rule, rules', hparse, hrest, rfl⟩
      rw [hparse, ih.mpr hrest]
      rfl

/-- The first text that is no rule decides. -/
lemma mapM_eq_error {before after : List String} {text : String} {error : RuleError}
    (hbefore : ∀ earlier ∈ before, ∃ r, e.parse earlier = .ok r)
    (htext : e.parse text = .error error) :
    (before ++ text :: after).mapM e.parse = .error error := by
  induction before with
  | nil =>
    rw [List.nil_append, List.mapM_cons, htext]
    rfl
  | cons earlier before ih =>
    obtain ⟨⟨r, hr⟩, hbefore⟩ := List.forall_mem_cons.mp hbefore
    rw [List.cons_append, List.mapM_cons, hr, ih hbefore]
    rfl

lemma exists_of_mapM_eq_error {texts : List String} {error : RuleError}
    (h : texts.mapM e.parse = .error error) :
    ∃ before text after, texts = before ++ text :: after ∧
      (∀ earlier ∈ before, ∃ r, e.parse earlier = .ok r) ∧ e.parse text = .error error := by
  induction texts with
  | nil => cases h
  | cons text texts ih =>
    rw [List.mapM_cons] at h
    cases hparse : e.parse text with
    | error error' =>
      rw [hparse] at h
      obtain rfl : error' = error := Except.error.inj h
      exact ⟨[], text, texts, rfl, by simp, hparse⟩
    | ok rule =>
      cases hrest : texts.mapM e.parse with
      | ok rules =>
        rw [hparse, hrest] at h
        cases h
      | error error' =>
        rw [hparse, hrest] at h
        obtain rfl : error' = error := Except.error.inj h
        obtain ⟨before, text', after, rfl, hbefore, herror⟩ := ih hrest
        exact ⟨text :: before, text', after, rfl,
          List.forall_mem_cons.mpr ⟨⟨rule, hparse⟩, hbefore⟩, herror⟩

/-- A combination reads all texts and joins their rules. -/
theorem combine_eq (texts : List String) :
    e.combine texts =
      texts.mapM e.parse >>= fun rules => e.join (e.dominant texts rules) rules := by
  have hsnd := e.readAll_snd [] [] texts
  rw [combine, combination]
  generalize e.readAll [] [] texts = read at hsnd ⊢
  obtain ⟨readings, outcome⟩ := read
  cases hmap : texts.mapM e.parse with
  | error error =>
    rw [hmap] at hsnd
    obtain rfl : outcome = .error error := hsnd
    rfl
  | ok rules =>
    rw [hmap] at hsnd
    obtain rfl : outcome = .ok rules := hsnd
    have hlength := (e.mapM_eq_ok_iff.mp hmap).length_eq
    simp only [e.foldl_tallyOf hlength]
    rfl

/-! ## Joining -/

/-- The fold stops at the first level too many, and the whole has them all. -/
lemma joinTo_eq (op : Connective) {acc : Rule.Sized} (hacc : acc.depth = acc.formula.depth)
    (hle : acc.depth ≤ e.maxDepth) (fs : List Formula) :
    e.joinTo op acc fs =
      if (fs.foldl (.join op) acc.formula).depth ≤ e.maxDepth then
        .ok (.ofFormula (fs.foldl (.join op) acc.formula))
      else .error (.tooDeep e.maxDepth) := by
  induction fs generalizing acc with
  | nil => simp [joinTo, ← hacc, hle]
  | cons f fs ih =>
    have hdepth : 1 + max acc.depth f.depth = (Formula.join op acc.formula f).depth := by
      rw [Formula.depth, hacc]
    rw [joinTo, List.foldl_cons]
    by_cases hlt : e.maxDepth < 1 + max acc.depth f.depth
    · have hfold := Formula.depth_le_foldl op (.join op acc.formula f) fs
      rw [if_pos hlt, if_neg (by omega)]
    · rw [if_neg hlt]
      exact ih hdepth (Nat.le_of_not_lt hlt)

/-- Formulas that keep to the limit are joined to their left fold, if that does so too. -/
theorem joinAll_eq (op : Connective) {fs : List Formula} (h : ∀ f ∈ fs, f.depth ≤ e.maxDepth) :
    e.joinAll op fs =
      if (Rule.joinLeft op fs).depth ≤ e.maxDepth then .ok (Rule.joinLeft op fs)
      else .error (.tooDeep e.maxDepth) := by
  cases fs with
  | nil => rfl
  | cons f fs => exact e.joinTo_eq op rfl (h f List.mem_cons_self) fs

theorem join_eq (op : Connective) {rules : List Rule}
    (h : ∀ f, .ofFormula f ∈ rules → f.depth ≤ e.maxDepth) :
    e.join op rules =
      if (Rule.joined op rules).depth ≤ e.maxDepth then .ok (Rule.joined op rules)
      else .error (.tooDeep e.maxDepth) := by
  have hguard : (decide (op = .and) && rules.any Rule.isEmpty) = true ↔
      op = .and ∧ .empty ∈ rules := by
    rw [Bool.and_eq_true, decide_eq_true_eq, Rule.any_isEmpty]
  rw [join]
  by_cases hempty : op = .and ∧ .empty ∈ rules
  · rw [if_pos (hguard.mpr hempty), Rule.joined_of_empty hempty]
    rfl
  · rw [if_neg (mt hguard.mp hempty), Rule.joined_of_not_empty hempty]
    exact e.joinAll_eq op fun f hf => h f (Rule.mem_filterMap_formula?.mp hf)

/-! ## The whole -/

variable {e}

lemma exists_text_of_mem {texts : List String} {rules : List Rule} {r : Rule}
    (h : List.Forall₂ (fun text rule => e.parse text = .ok rule) texts rules) (hr : r ∈ rules) :
    ∃ text, e.parse text = .ok r := by
  induction h with
  | nil => simp at hr
  | @cons text rule _ _ hparse _ ih =>
    rcases List.mem_cons.mp hr with rfl | hr
    · exact ⟨text, hparse⟩
    · exact ih hr

lemma depth_le_of_parsed {texts : List String} {rules : List Rule}
    (h : List.Forall₂ (fun text rule => e.parse text = .ok rule) texts rules) {f : Formula}
    (hf : .ofFormula f ∈ rules) : f.depth ≤ e.maxDepth := by
  obtain ⟨text, hparse⟩ := exists_text_of_mem h hf
  exact (readable_of_parse hparse).depth_le

/-- Where all texts are rules, only what these come to can be too deep. -/
lemma combine_of_parsed {texts : List String} {rules : List Rule}
    (h : List.Forall₂ (fun text rule => e.parse text = .ok rule) texts rules) :
    e.combine texts =
      if (Rule.joined (e.dominant texts rules) rules).depth ≤ e.maxDepth then
        .ok (.joined (e.dominant texts rules) rules)
      else .error (.tooDeep e.maxDepth) := by
  rw [combine_eq, e.mapM_eq_ok_iff.mpr h]
  exact e.join_eq _ fun f hf => depth_le_of_parsed h hf

/-- Where a combination succeeds, all texts are rules, and it is what these come to. -/
lemma combine_ok {texts : List String} {t : Rule} (h : e.combine texts = .ok t) :
    ∃ rules, List.Forall₂ (fun text rule => e.parse text = .ok rule) texts rules ∧
      t = .joined (e.dominant texts rules) rules ∧ t.depth ≤ e.maxDepth := by
  cases hmap : texts.mapM e.parse with
  | error error =>
    rw [combine_eq, hmap] at h
    cases h
  | ok rules =>
    have hrules := e.mapM_eq_ok_iff.mp hmap
    rw [combine_of_parsed hrules] at h
    split at h
    · rename_i hdepth
      obtain rfl := Except.ok.inj h
      exact ⟨rules, hrules, rfl, hdepth⟩
    · simp at h

/-- **What a combination means.**  All texts are rules, and the connective that is counted
more often joins them: the whole is true if all of them are, or some.  It is empty if all
of them have to be true and one is empty; else it is the left fold of those that are not
empty, and these are parts of it. -/
theorem combine_meaning {texts : List String} {t : Rule} (hne : texts ≠ [])
    (h : e.combine texts = .ok t) :
    ∃ rules op, List.Forall₂ (fun text rule => e.parse text = .ok rule) texts rules ∧
      op = e.dominant texts rules ∧
      (∀ ctx, t.evaluate ctx = op.applyAll (rules.map (·.evaluate ctx))) ∧
      (op = .and ∧ .empty ∈ rules → t = .empty) ∧
      (¬ (op = .and ∧ .empty ∈ rules) →
        t = .joinLeft op (rules.filterMap Rule.formula?) ∧
        ∀ f, .ofFormula f ∈ rules → ∃ g, t = .ofFormula g ∧ f.PartOf g) := by
  obtain ⟨rules, hrules, rfl, -⟩ := combine_ok h
  refine ⟨rules, _, hrules, rfl, fun ctx => ?_, fun hempty => ?_, fun hempty => ?_⟩
  · refine Rule.evaluate_joined _ ?_ ctx
    rintro rfl
    exact hne (List.forall₂_nil_right_iff.mp hrules)
  · exact Rule.joined_of_empty hempty
  · rw [Rule.joined_of_not_empty hempty]
    exact ⟨rfl, fun f hf =>
      Rule.exists_partOf_joinLeft _ (Rule.mem_filterMap_formula?.mpr hf)⟩

/-- Two rules and a text without conditions, among which OR is counted more often. -/
theorem combine_meaning_skips_empty :
    ∃ rules op, List.Forall₂ (fun text rule => Engine.default.parse text = .ok rule)
        ["a = 1 OR b = 2", "", "c = 3"] rules ∧
      op = Engine.default.dominant ["a = 1 OR b = 2", "", "c = 3"] rules ∧
      ∀ ctx, (Rule.ofFormula (.join .or (.join .or (.leaf "a = 1") (.leaf "b = 2"))
        (.leaf "c = 3"))).evaluate ctx = op.applyAll (rules.map (·.evaluate ctx)) := by
  have hcombine : Engine.default.combine ["a = 1 OR b = 2", "", "c = 3"] =
      .ok (.ofFormula (.join .or (.join .or (.leaf "a = 1") (.leaf "b = 2")) (.leaf "c = 3"))) := by
    decide
  obtain ⟨rules, op, hrules, hop, hevaluate, -⟩ := combine_meaning (by simp) hcombine
  exact ⟨rules, op, hrules, hop, hevaluate⟩

/-- **When a combination fails.**  It does so in two cases.  The error is that of the first text
which is no rule; or all texts are rules, and the left fold of those that are not empty has more
levels than the limit, while it is not so that all of them have to be true and one is empty. -/
theorem combine_eq_error_iff (e : Engine) (texts : List String) (error : RuleError) :
    e.combine texts = .error error ↔
      (∃ before text after, texts = before ++ text :: after ∧
        (∀ earlier ∈ before, ∃ r, e.parse earlier = .ok r) ∧ e.parse text = .error error) ∨
      ∃ rules, List.Forall₂ (fun text rule => e.parse text = .ok rule) texts rules ∧
        error = .tooDeep e.maxDepth ∧
        ¬ (e.dominant texts rules = .and ∧ .empty ∈ rules) ∧
        e.maxDepth <
          (Rule.joinLeft (e.dominant texts rules) (rules.filterMap Rule.formula?)).depth := by
  constructor
  · intro h
    cases hmap : texts.mapM e.parse with
    | error error' =>
      rw [combine_eq, hmap] at h
      obtain rfl : error' = error := Except.error.inj h
      exact .inl (e.exists_of_mapM_eq_error hmap)
    | ok rules =>
      have hrules := e.mapM_eq_ok_iff.mp hmap
      rw [combine_of_parsed hrules] at h
      split at h
      · cases h
      · rename_i hdepth
        rw [not_le, Rule.lt_depth_joined_iff] at hdepth
        exact .inr ⟨rules, hrules, (Except.error.inj h).symm, hdepth⟩
  · rintro (⟨before, text, after, rfl, hbefore, htext⟩ | ⟨rules, hrules, rfl, hdepth⟩)
    · rw [combine_eq, e.mapM_eq_error hbefore htext]
      rfl
    · rw [← Rule.lt_depth_joined_iff] at hdepth
      rw [combine_of_parsed hrules, if_neg (Nat.not_le.mpr hdepth)]

/-- Three levels are not enough for the third rule, and need not be where a rule is empty. -/
example :
    (Engine.default.withMaxDepth 3).combine ["a > 1 AND b > 2", "c > 3", "d > 4"] =
        .error (.tooDeep 3) ∧
      (Engine.default.withMaxDepth 3).combine ["a > 1 AND b > 2", "c > 3", "d > 4", ""] =
        .ok .empty := by
  decide

/-- What a combination comes to is as readable as the rules that were combined. -/
theorem readable_of_combine {texts : List String} {f : Formula}
    (h : e.combine texts = .ok (.ofFormula f)) : f.Readable e.maxDepth := by
  obtain ⟨rules, hrules, hjoined, hdepth⟩ := combine_ok h
  have hpart : ∀ text ∈ f.conditions, ∃ g : Formula,
      g.Readable e.maxDepth ∧ text ∈ g.conditions := by
    intro text htext
    change text ∈ (Rule.ofFormula f).conditions at htext
    rw [hjoined] at htext
    obtain ⟨g, hg, htext⟩ := Rule.exists_mem_of_mem_conditions_joined htext
    obtain ⟨text', hparse⟩ := exists_text_of_mem hrules hg
    exact ⟨g, readable_of_parse hparse, htext⟩
  refine ⟨hdepth, fun text htext => ?_, fun text htext => ?_⟩
  · obtain ⟨g, hg, htext⟩ := hpart text htext
    exact hg.ofText_eq text htext
  · obtain ⟨g, hg, htext⟩ := hpart text htext
    exact hg.split_ok text htext

end Engine
end Verdict
