import Verdict.Proofs.Combination
import Verdict.Proofs.Rule.Turn
/-
The limit for the number of levels.

Reading a text and joining rules carry numbers of levels along, and compare these with the
limit.  So the limit is kept just as well as these numbers are right, and they are right at
every point of either run (`Engine.depth_of_points`).

Nothing else depends on the limit.  Under a higher one every turn is the same, up to the join
that has too many levels under the lower one; so a higher limit changes no outcome but that
failure (`Engine.outcome_of_raisedTo`).
-/
namespace Verdict

open Rule (Token Sized Fault Assembly Built Stop assemble)
open Rule.Token (ofText)
open Rule.Assembly (Turns)

namespace Rule

namespace Assembly

variable {limit : Nat}

/-! ## A higher limit -/

/-- Another limit helps only where too many levels stand in the way. -/
lemma Stuck.of_ne_tooDeep {x : Assembly × List Token} {fault : Fault} (h : Stuck limit x fault)
    (hne : fault ≠ .tooDeep) (limit' : Nat) : Stuck limit' x fault := by
  cases h with
  | condition hs => exact .condition hs
  | unopened => exact .unopened
  | unclosed => exact .unclosed
  | tooDeep _ _ => exact absurd rfl hne

variable {limit' : Nat} (hle : limit ≤ limit')
include hle

/-- What is joined under a limit is joined under a higher one. -/
lemma reduce_of_le {op : Connective} {b b' : Built} (h : b.reduce limit op = .ok b') :
    b.reduce limit' op = .ok b' := by
  obtain ⟨formulas, discarded⟩ := b
  rcases Built.reduce_ok h with ⟨right, left, rest, rfl, hdepth, rfl⟩ | ⟨hfew, rfl⟩
  · exact if_neg (by omega)
  · exact Built.reduce_of_lt hfew

lemma Move.of_le {x y : Assembly × List Token} (h : Move limit x y) : Move limit' x y := by
  cases h with
  | takeBack hr => exact .takeBack (reduce_of_le hle hr)
  | operand hs => exact .operand hs
  | opening => exact .opening
  | closing => exact .closing
  | connective => exact .connective

lemma Turns.of_le {x y : Assembly × List Token} (h : Turns limit x y) : Turns limit' x y :=
  h.lift id fun _ _ hturn => ⟨hturn.move.of_le hle, hturn.stays_iff⟩

/-- The two runs go side by side until the one with the lower limit ends. -/
theorem assemble_of_le (ts : List Token) :
    assemble limit ts = assemble limit' ts ∨
      ∃ discarded, assemble limit ts = .error ⟨.tooDeep, discarded⟩ := by
  obtain ⟨x, hturns, hend⟩ := exists_turns limit (start, ts)
  have hrun : assemble limit ts = x.1.run limit x.2 := hturns.run_eq
  have hrun' : assemble limit' ts = x.1.run limit' x.2 := (hturns.of_le hle).run_eq
  rcases hend with ⟨b, rfl⟩ | ⟨fault, hstuck⟩
  · exact Or.inl (hrun.trans hrun'.symm)
  · by_cases hfault : fault = .tooDeep
    · subst hfault
      exact Or.inr ⟨_, hrun.trans hstuck.run_eq⟩
    · refine Or.inl ?_
      rw [hrun, hrun', hstuck.run_eq, (hstuck.of_ne_tooDeep hfault limit').run_eq]

end Assembly

end Rule

namespace Engine

/-! ## The points of a join -/

/-- The points of joining the formulas `fs` under `op`: what has been joined, beside the number
of its levels, and the formulas that are left. -/
inductive JoinPoint (e : Engine) (op : Connective) (fs : List Formula) :
    Sized → List Formula → Prop
  | first {f : Formula} {rest : List Formula} : fs = f :: rest → JoinPoint e op fs ⟨f, f.depth⟩ rest
  | next {acc : Sized} {f : Formula} {rest : List Formula} : JoinPoint e op fs acc (f :: rest) →
      1 + max acc.depth f.depth ≤ e.maxDepth →
      JoinPoint e op fs ⟨.join op acc.formula f, 1 + max acc.depth f.depth⟩ rest

variable {e : Engine} {op : Connective} {fs rest : List Formula} {acc : Sized}

/-- The join goes on from each of its points. -/
lemma JoinPoint.joinAll_eq (h : e.JoinPoint op fs acc rest) :
    e.joinAll op fs = e.joinTo op acc rest := by
  induction h with
  | first hfs =>
    subst hfs
    rfl
  | next _ hdepth ih => rw [ih, joinTo, if_neg (by omega)]

lemma JoinPoint.wellSized (h : e.JoinPoint op fs acc rest) (hfs : ∀ f ∈ fs, f.depth ≤ e.maxDepth) :
    acc.depth = acc.formula.depth ∧ acc.depth ≤ e.maxDepth := by
  induction h with
  | first hmem =>
    subst hmem
    exact ⟨rfl, hfs _ List.mem_cons_self⟩
  | next _ hdepth ih => exact ⟨by rw [Formula.depth, ih.1], hdepth⟩

lemma depth_le_of_parse {text : String} {t : Rule} (h : e.parse text = .ok t) :
    t.depth ≤ e.maxDepth := by
  obtain ⟨_ | f⟩ := t
  · exact Nat.zero_le _
  · exact (readable_of_parse h).depth_le

/-- **The levels are counted right.**  At every point of reading a text, and of joining the
rules of several, each formula stands beside its true depth, which is within the limit; the
points of reading are all those between two tokens, and those between two connectives that are
taken back.  So no rule that is read or combined has more levels than the limit. -/
theorem depth_of_points (e : Engine) :
    (∀ text x, Turns e.maxDepth (.start, ofText text) x →
      assemble e.maxDepth (ofText text) = x.1.run e.maxDepth x.2 ∧
        ∀ s ∈ x.1.built.formulas, s.depth = s.formula.depth ∧ s.depth ≤ e.maxDepth) ∧
    (∀ text us vs a, ofText text = us ++ vs → Assembly.start.advance e.maxDepth us = .ok a →
      Turns e.maxDepth (.start, ofText text) (a, vs)) ∧
    (∀ texts rules acc rest,
      List.Forall₂ (fun text rule => e.parse text = .ok rule) texts rules →
      e.JoinPoint (e.dominant texts rules) (rules.filterMap Rule.formula?) acc rest →
      e.joinAll (e.dominant texts rules) (rules.filterMap Rule.formula?) =
          e.joinTo (e.dominant texts rules) acc rest ∧
        acc.depth = acc.formula.depth ∧ acc.depth ≤ e.maxDepth) ∧
    (∀ text t, e.parse text = .ok t → t.depth ≤ e.maxDepth) ∧
    (∀ texts t, e.combine texts = .ok t → t.depth ≤ e.maxDepth) := by
  refine ⟨fun text x hx => ⟨hx.run_eq, ?_⟩, fun text us vs a htext ha => ?_,
    fun texts rules acc rest hrules hpoint => ⟨hpoint.joinAll_eq, hpoint.wellSized ?_⟩,
    fun text t ht => depth_le_of_parse ht, fun texts t ht => ?_⟩
  · exact hx.wellSized e.one_le_maxDepth
  · rw [htext]
    exact Rule.Assembly.turns_of_advance vs ha
  · intro f hf
    obtain ⟨text, ht⟩ := exists_text_of_mem hrules (Rule.mem_filterMap_formula?.mp hf)
    exact depth_le_of_parse ht
  · obtain ⟨rules, -, -, hdepth⟩ := combine_ok ht
    exact hdepth

/-- A text with a group in it, and two texts of which the first has a join, under a limit of
three levels. -/
theorem depth_of_points_nested :
    let e := Engine.default.withMaxDepth 3
    let group : Formula := .join .and (.leaf "b = 2") (.leaf "c = 3")
    let side : Formula := .join .or (.leaf "a = 1") (.leaf "b = 2")
    (Turns e.maxDepth (.start, ofText "a = 1 OR (b = 2 AND c = 3) OR d = 4")
        (⟨[.join .or], [⟨group, 2⟩, ⟨.leaf "a = 1", 1⟩], []⟩, [.connective .or, .operand "d = 4"]) ∧
      ∀ s ∈ [Sized.mk group 2, ⟨.leaf "a = 1", 1⟩], s.depth = s.formula.depth ∧ s.depth ≤ 3) ∧
    (e.parse "a = 1 OR (b = 2 AND c = 3)" = .ok (.ofFormula (.join .or (.leaf "a = 1") group)) ∧
      (Rule.ofFormula (.join .or (.leaf "a = 1") group)).depth ≤ 3) ∧
    (e.JoinPoint .or [side, .leaf "c = 3"] ⟨.join .or side (.leaf "c = 3"), 3⟩ [] ∧
      3 = (Formula.join .or side (.leaf "c = 3")).depth) ∧
    e.combine ["a = 1 OR b = 2", "c = 3"] = .ok (.ofFormula (.join .or side (.leaf "c = 3"))) ∧
      (Rule.ofFormula (.join .or side (.leaf "c = 3"))).depth ≤ 3 := by
  intro e group side
  obtain ⟨hpoints, hbetween, hjoins, hparses, hcombines⟩ := depth_of_points e
  have hturns := hbetween "a = 1 OR (b = 2 AND c = 3) OR d = 4" [.operand "a = 1", .connective .or,
    .opening, .operand "b = 2", .connective .and, .operand "c = 3", .closing]
    [.connective .or, .operand "d = 4"]
    ⟨[.join .or], [⟨group, 2⟩, ⟨.leaf "a = 1", 1⟩], []⟩ (by decide) (by decide)
  have hparse : e.parse "a = 1 OR (b = 2 AND c = 3)" =
      .ok (.ofFormula (.join .or (.leaf "a = 1") group)) := by decide
  have hcombine : e.combine ["a = 1 OR b = 2", "c = 3"] =
      .ok (.ofFormula (.join .or side (.leaf "c = 3"))) := by decide
  have hpoint : e.JoinPoint .or [side, .leaf "c = 3"] ⟨.join .or side (.leaf "c = 3"), 3⟩ [] :=
    .next (.first rfl) (by decide)
  have hrules : List.Forall₂ (fun text rule => e.parse text = .ok rule)
      ["a = 1 OR b = 2", "c = 3"] [.ofFormula side, .ofFormula (.leaf "c = 3")] :=
    .cons (by decide) (.cons (by decide) .nil)
  exact ⟨⟨hturns, (hpoints _ _ hturns).2⟩, ⟨hparse, hparses _ _ hparse⟩,
    ⟨hpoint, (hjoins _ _ _ _ hrules hpoint).2.1⟩, hcombine, hcombines _ _ hcombine⟩

/-! ## Two limits -/

/-- The engine `e'` is `e` with a limit that is not lower. -/
structure RaisedTo (e e' : Engine) : Prop where
  emptyPolicy_eq : e.emptyPolicy = e'.emptyPolicy
  counting_eq : e.counting = e'.counting
  maxDepth_le : e.maxDepth ≤ e'.maxDepth

/-- The outcomes are the same, unless the first is that `limit` is exceeded. -/
def SameOrTooDeep {α : Type} (limit : Nat) (outcome outcome' : Except RuleError α) : Prop :=
  outcome = outcome' ∨ outcome = .error (.tooDeep limit)

/-- What is done one after the other agrees if each of it does. -/
lemma SameOrTooDeep.bind {α β : Type} {limit : Nat} {x x' : Except RuleError α}
    {f f' : α → Except RuleError β} (hx : SameOrTooDeep limit x x')
    (hf : ∀ a, x = .ok a → SameOrTooDeep limit (f a) (f' a)) :
    SameOrTooDeep limit (x >>= f) (x' >>= f') := by
  rcases hx with rfl | rfl
  · cases x with
    | error error => exact Or.inl rfl
    | ok a => exact hf a rfl
  · exact Or.inr rfl

lemma SameOrTooDeep.eq_of_ne {α : Type} {limit : Nat} {outcome outcome' : Except RuleError α}
    (h : SameOrTooDeep limit outcome outcome') (hne : outcome ≠ .error (.tooDeep limit)) :
    outcome' = outcome :=
  (h.resolve_right hne).symm

section Raised

variable {e' : Engine} (h : e.RaisedTo e')
include h

lemma RaisedTo.parse (text : String) :
    SameOrTooDeep e.maxDepth (e.parse text) (e'.parse text) := by
  rw [parse_eq, parse_eq]
  rcases Rule.Assembly.assemble_of_le h.maxDepth_le (ofText text) with hsame | ⟨discarded, hdeep⟩
  · rw [← hsame]
    cases hrun : assemble e.maxDepth (ofText text) with
    | error stop =>
      obtain ⟨fault, discarded⟩ := stop
      cases fault with
      | malformedCondition error => exact Or.inl rfl
      | unbalancedParentheses => exact Or.inl rfl
      | tooDeep => exact Or.inr rfl
    | ok built => exact Or.inl (by simp only [firstOf, h.emptyPolicy_eq])
  · rw [hdeep]
    exact Or.inr rfl

/-- The first text with an error is the same one, unless a formula before it is too deep. -/
lemma RaisedTo.mapM_parse (texts : List String) :
    SameOrTooDeep e.maxDepth (texts.mapM e.parse) (texts.mapM e'.parse) := by
  induction texts with
  | nil => exact Or.inl rfl
  | cons text texts ih =>
    rw [List.mapM_cons, List.mapM_cons]
    exact (h.parse text).bind fun rule _ => ih.bind fun rules _ => Or.inl rfl

lemma RaisedTo.dominant_eq (texts : List String) (rules : List Rule) :
    e.dominant texts rules = e'.dominant texts rules := by
  have htotal (op : Connective) : e.total op texts rules = e'.total op texts rules := by
    rw [total, total, h.counting_eq]
  rw [dominant, dominant, htotal, htotal]

lemma RaisedTo.join (op : Connective) {rules : List Rule}
    (hrules : ∀ f, .ofFormula f ∈ rules → f.depth ≤ e.maxDepth) :
    SameOrTooDeep e.maxDepth (e.join op rules) (e'.join op rules) := by
  have hle := h.maxDepth_le
  rw [e.join_eq op hrules, e'.join_eq op fun f hf => (hrules f hf).trans hle]
  by_cases hdepth : (Rule.joined op rules).depth ≤ e.maxDepth
  · rw [if_pos hdepth, if_pos (hdepth.trans hle)]
    exact Or.inl rfl
  · rw [if_neg hdepth]
    exact Or.inr rfl

lemma RaisedTo.combine (texts : List String) :
    SameOrTooDeep e.maxDepth (e.combine texts) (e'.combine texts) := by
  rw [combine_eq, combine_eq]
  refine (h.mapM_parse texts).bind fun rules hrules => ?_
  rw [← h.dominant_eq]
  exact h.join _ fun f hf => depth_le_of_parsed (e.mapM_eq_ok_iff.mp hrules) hf

end Raised

/-- **A higher limit changes one outcome only.**  Under a higher limit, a text is read and
several are combined as under the lower one, unless the lower limit was exceeded.  So a rule
stays as it is, and so does an error of any other kind. -/
theorem outcome_of_raisedTo {e e' : Engine} (h : e.RaisedTo e') :
    (∀ text, e.parse text = e'.parse text ∨ e.parse text = .error (.tooDeep e.maxDepth)) ∧
    (∀ texts, e.combine texts = e'.combine texts ∨
      e.combine texts = .error (.tooDeep e.maxDepth)) ∧
    (∀ text t, e.parse text = .ok t → e'.parse text = .ok t) ∧
    (∀ texts t, e.combine texts = .ok t → e'.combine texts = .ok t) ∧
    (∀ text error, error ≠ .tooDeep e.maxDepth →
      e.parse text = .error error → e'.parse text = .error error) ∧
    (∀ texts error, error ≠ .tooDeep e.maxDepth →
      e.combine texts = .error error → e'.combine texts = .error error) := by
  refine ⟨h.parse, h.combine, fun text t ht => ?_, fun texts t ht => ?_,
    fun text error hne ht => ?_, fun texts error hne ht => ?_⟩
  · rw [(h.parse text).eq_of_ne (by simp [ht]), ht]
  · rw [(h.combine texts).eq_of_ne (by simp [ht]), ht]
  · rw [(h.parse text).eq_of_ne (by simpa [ht] using hne), ht]
  · rw [(h.combine texts).eq_of_ne (by simpa [ht] using hne), ht]

/-- A limit of one level hides that the last condition is none; it makes no difference to a
single condition, nor to a condition that is none. -/
theorem outcome_of_raisedTo_revealed :
    let e := Engine.default.withMaxDepth 1
    let e' := Engine.default.withMaxDepth 2
    e.RaisedTo e' ∧
      e.parse "a = 1 AND b = 2 OR c" = .error (.tooDeep 1) ∧
      e'.parse "a = 1 AND b = 2 OR c" = .error (.malformedCondition (.invalidFormat "c")) ∧
      e'.combine ["a = 1", ""] = .ok .empty ∧
      e'.parse "c" = .error (.malformedCondition (.invalidFormat "c")) := by
  intro e e'
  have hraised : e.RaisedTo e' := ⟨rfl, rfl, by decide⟩
  obtain ⟨-, -, -, hcombines, herrors, -⟩ := outcome_of_raisedTo hraised
  exact ⟨hraised, by decide, by decide, hcombines _ _ (by decide),
    herrors _ _ (by decide) (by decide)⟩

end Engine
end Verdict
