import Verdict.Proofs.Engine
import Verdict.Proofs.Rule.Fault
/-
What becomes of any text.

Few texts are sentences of the grammar, but each is read in one of a few ways, and the tokens
alone tell in which (`Engine.Decides`, `Engine.parse_outcome`): what is wrong with a text is its
first fault, whatever the connectives in it; and where nothing is wrong, a rule is read.

That rule may not be all of the text.  But what is missing is reported (`Engine.parse_accounts`):
conditions that nothing joins are ignored from the end, under a warning, and connectives that
join nothing are discarded, each with an event of its own.
-/
namespace Verdict

open Rule (Token assemble Built Sized)
open Rule.Token (Faultless FirstFault ofText operands bare)

namespace Event

/-- The event reports that `op` was discarded. -/
def IsDiscard (op : Connective) (event : Event) : Prop :=
  event.level = .trace ∧ event.message = "operator without two operands discarded" ∧
    event.fields = [("op", .text op.keyword)]

instance (op : Connective) : DecidablePred (IsDiscard op) :=
  fun _ => inferInstanceAs (Decidable (_ ∧ _ ∧ _))

/-- The event warns that conditions were ignored. -/
def IsIgnored (event : Event) : Prop :=
  event.level = .warn ∧ event.message = "conditions not joined by AND/OR were ignored"

instance : DecidablePred IsIgnored :=
  fun _ => inferInstanceAs (Decidable (_ ∧ _))

lemma isDiscard_connectiveDiscarded {op op' : Connective} :
    IsDiscard op (.connectiveDiscarded op') ↔ op' = op := by
  cases op <;> cases op' <;> decide

lemma not_isDiscard_tokenized (op : Connective) (text : String) (tokens : List Token) :
    ¬ IsDiscard op (.tokenized text tokens) := by
  rintro ⟨-, hmessage, -⟩
  have hne : "tokenized rule" ≠ "operator without two operands discarded" := by decide
  exact hne hmessage

lemma not_isDiscard_conditionsIgnored (op : Connective) (text : String) (dropped : Nat) :
    ¬ IsDiscard op (.conditionsIgnored text dropped) := by
  rintro ⟨hlevel, -⟩
  cases hlevel

lemma isIgnored_iff {event : Event} :
    event.IsIgnored ↔ ∃ text dropped, event = .conditionsIgnored text dropped := by
  constructor
  · rintro ⟨hlevel, hmessage⟩
    cases event with
    | conditionsIgnored text dropped => exact ⟨text, dropped, rfl⟩
    | unparsableCondition text error =>
      have hne : "unparsable condition evaluates to false" ≠
          "conditions not joined by AND/OR were ignored" := by decide
      exact absurd hmessage hne
    | _ => cases hlevel
  · rintro ⟨text, dropped, rfl⟩
    exact ⟨rfl, rfl⟩

end Event

namespace Reading

/-- A warning is given exactly when formulas are dropped. -/
lemma exists_isIgnored_iff (r : Reading) :
    (∃ event ∈ r.events, event.IsIgnored) ↔ r.dropped ≠ 0 := by
  constructor
  · rintro ⟨event, hmem, hevent⟩ hdropped
    obtain ⟨text, dropped, rfl⟩ := Event.isIgnored_iff.mp hevent
    simp [events, hdropped] at hmem
  · intro hdropped
    refine ⟨.conditionsIgnored r.text r.dropped, ?_, rfl, rfl⟩
    simp [events, hdropped]

/-- Each discarded connective is reported once. -/
lemma countP_isDiscard (r : Reading) (op : Connective) :
    r.events.countP (Event.IsDiscard op ·) = r.discarded.count op := by
  have hdiscarded : (r.discarded.map Event.connectiveDiscarded).countP (Event.IsDiscard op ·) =
      r.discarded.count op := by
    rw [List.countP_map, List.count]
    refine List.countP_congr fun op' _ => ?_
    simp [Event.isDiscard_connectiveDiscarded]
  have hrest : (if r.dropped = 0 then [] else [Event.conditionsIgnored r.text r.dropped]).countP
      (Event.IsDiscard op ·) = 0 := by
    refine List.countP_eq_zero.mpr fun event hmem => ?_
    split at hmem
    · simp at hmem
    · obtain rfl := List.mem_singleton.mp hmem
      simpa using Event.not_isDiscard_conditionsIgnored op r.text r.dropped
  rw [events, List.countP_append, List.countP_cons_of_neg, hdiscarded, hrest, Nat.add_zero]
  simpa using Event.not_isDiscard_tokenized op r.text r.tokens

end Reading

namespace Engine

/-! ## How a text is read -/

/-- The tokens `ts` tell how the engine reads `text`. -/
structure Decides (e : Engine) (text : String) (ts : List Token) : Prop where
  /-- The first fault stops the reading. -/
  fault : ∀ fault, FirstFault ts fault → e.parse text = .error (e.errorOf text fault)
  /-- So does a group that is never closed, if nothing else does. -/
  unclosed : Faultless ts → ts.count .closing < ts.count .opening →
    e.parse text = .error (.unbalancedParentheses text)
  /-- Nothing is read where there is no condition. -/
  empty : Faultless ts → ¬ ts.count .closing < ts.count .opening → operands ts = [] →
    e.parse text =
      match e.emptyPolicy with
      | .lenient => .ok .empty
      | .reject => .error (.emptyExpression text)
  formula : Faultless ts → ¬ ts.count .closing < ts.count .opening → operands ts ≠ [] →
    ∃ f, e.parse text = .ok (.ofFormula f)

/-- It does not depend on the connectives. -/
lemma Decides.of_bare {e : Engine} {text : String} {ts us : List Token} (h : e.Decides text ts)
    (hbare : bare us = bare ts) : e.Decides text us := by
  have hfaultless : Faultless us ↔ Faultless ts := by
    rw [← Token.faultless_bare, hbare, Token.faultless_bare]
  have hoperands : operands us = operands ts := by
    rw [← Token.operands_bare, hbare, Token.operands_bare]
  have hcount : ∀ {t : Token}, t.isConnective = false → us.count t = ts.count t := by
    intro t ht
    rw [← Token.count_bare ht, hbare, Token.count_bare ht]
  refine ⟨fun fault hfault => h.fault fault ?_, ?_, ?_, ?_⟩
  · rwa [← Token.firstFault_bare, ← hbare, Token.firstFault_bare]
  · rw [hfaultless, hcount rfl, hcount rfl]
    exact h.unclosed
  · rw [hfaultless, hcount rfl, hcount rfl, hoperands]
    exact h.empty
  · rw [hfaultless, hcount rfl, hcount rfl, hoperands]
    exact h.formula

lemma decides_of_fault {e : Engine} {text : String} {ts : List Token} {fault : Rule.Fault}
    (hfault : FirstFault ts fault) (hparse : e.parse text = .error (e.errorOf text fault)) :
    e.Decides text ts := by
  have hnot := hfault.not_faultless
  refine ⟨fun fault' hfault' => ?_, fun h => absurd h hnot, fun h => absurd h hnot,
    fun h => absurd h hnot⟩
  rw [hparse, hfault.unique hfault']

lemma decides_of_unclosed {e : Engine} {text : String} {ts : List Token} (hfaultless : Faultless ts)
    (hopen : ts.count .closing < ts.count .opening)
    (hparse : e.parse text = .error (.unbalancedParentheses text)) : e.Decides text ts := by
  refine ⟨fun fault hfault => absurd hfaultless hfault.not_faultless, fun _ _ => hparse,
    fun _ h => absurd hopen h, fun _ h => absurd hopen h⟩

lemma decides_of_built {e : Engine} {text : String} {ts : List Token} {formulas : List Sized}
    (hfaultless : Faultless ts) (hclosed : ¬ ts.count .closing < ts.count .opening)
    (hnone : operands ts = [] ↔ formulas = []) (hparse : e.parse text = e.firstOf text formulas) :
    e.Decides text ts := by
  refine ⟨fun fault hfault => absurd hfaultless hfault.not_faultless,
    fun _ hopen => absurd hopen hclosed, fun _ _ hoperands => ?_, fun _ _ hoperands => ?_⟩
  · rw [hparse, hnone.mp hoperands, firstOf]
    cases e.emptyPolicy <;> rfl
  · obtain ⟨s, hs⟩ : ∃ s, formulas.getLast? = some s := by
      rw [← Option.ne_none_iff_exists', ne_eq, List.getLast?_eq_none_iff, ← hnone]
      exact hoperands
    exact ⟨s.formula, by simp [hparse, firstOf, hs]⟩

/-- None of the ways to be read is to be too deep. -/
lemma Decides.ne_tooDeep {e : Engine} {text : String} {ts : List Token} (h : e.Decides text ts)
    (limit : Nat) : e.parse text ≠ .error (.tooDeep limit) := by
  intro hdeep
  rcases Token.faultless_or_firstFault ts with hfaultless | ⟨fault, hfault⟩
  · by_cases hopen : ts.count .closing < ts.count .opening
    · rw [h.unclosed hfaultless hopen] at hdeep
      cases hdeep
    · by_cases hoperands : operands ts = []
      · rw [h.empty hfaultless hopen hoperands] at hdeep
        split at hdeep <;> cases hdeep
      · obtain ⟨f, hf⟩ := h.formula hfaultless hopen hoperands
        rw [hf] at hdeep
        cases hdeep
  · rw [h.fault fault hfault] at hdeep
    cases fault with
    | tooDeep => exact FirstFault.ne_tooDeep hfault rfl
    | _ => cases hdeep

/-- With a level for every operand, the tokens of a text tell how it is read. -/
lemma decides_ofText {e : Engine} {text : String}
    (hlimit : (operands (ofText text)).length ≤ e.maxDepth) : e.Decides text (ofText text) := by
  rcases Rule.assemble_outcome e.one_le_maxDepth hlimit with
    ⟨fault, discarded, hfault, hrun⟩ | ⟨hfaultless, hopen, discarded, hrun⟩ |
    ⟨hfaultless, hclosed, b, hrun⟩
  · exact decides_of_fault hfault (by rw [parse_eq, hrun])
  · refine decides_of_unclosed hfaultless hopen ?_
    rw [parse_eq, hrun]
    rfl
  · have hnone : operands (ofText text) = [] ↔ b.formulas = [] := by
      rw [← Rule.Assembly.run_conditions hrun, Built.conditions_eq_nil_iff]
    exact decides_of_built hfaultless (by omega) hnone (by rw [parse_eq, hrun])

/-- **What becomes of a text.**  An engine that allows a level for every operand never finds a
formula too deep, and how it reads a text is told by the tokens, or by any others that differ
from them in connectives only. -/
theorem parse_outcome (e : Engine) (text : String)
    (hlimit : (operands (ofText text)).length ≤ e.maxDepth) :
    (∀ limit, e.parse text ≠ .error (.tooDeep limit)) ∧
      ∀ ts, bare ts = bare (ofText text) → e.Decides text ts := by
  have hdecides := decides_ofText hlimit
  exact ⟨hdecides.ne_tooDeep, fun ts hts => hdecides.of_bare hts⟩

/-- A parenthesis is at fault before a condition that cannot be split. -/
theorem parse_outcome_first :
    (operands (ofText "AND (a = 1 OR b = 2) OR) c")).length ≤ Engine.default.maxDepth ∧
      FirstFault (ofText "AND (a = 1 OR b = 2) OR) c") .unbalancedParentheses ∧
      Engine.default.parse "AND (a = 1 OR b = 2) OR) c" =
        .error (.unbalancedParentheses "AND (a = 1 OR b = 2) OR) c") := by
  have hlimit : (operands (ofText "AND (a = 1 OR b = 2) OR) c")).length ≤
      Engine.default.maxDepth := by decide
  have hfault : FirstFault (ofText "AND (a = 1 OR b = 2) OR) c") .unbalancedParentheses := by
    refine ⟨[.connective .and, .opening, .operand "a = 1", .connective .or, .operand "b = 2",
      .closing, .connective .or], .closing, [.operand "c"], ?_, ?_, ?_⟩
    · decide
    · decide
    · rfl
  have hdecides := (parse_outcome .default "AND (a = 1 OR b = 2) OR) c" hlimit).2 _ rfl
  exact ⟨hlimit, hfault, hdecides.fault _ hfault⟩

/-! ## What is reported of it -/

lemma read_of_assemble {e : Engine} {text : String} {b : Built}
    (h : assemble e.maxDepth (ofText text) = .ok b) :
    e.read text = ⟨text, ofText text, b.discarded.reverse, b.formulas.length - 1,
      e.firstOf text b.formulas⟩ := by
  rw [read, h]

/-- **Nothing is lost unannounced.**  The rule that is read has the first `k` of the conditions
in its text.  A warning says when these are not all of them; and when they are, each connective
joins two formulas or is reported as discarded. -/
theorem parse_accounts {e : Engine} {text : String} {t : Rule} (h : e.parse text = .ok t)
    (hne : t ≠ .empty) :
    ∃ k, 1 ≤ k ∧ k ≤ (operands (ofText text)).length ∧
      t.conditions = (operands (ofText text)).take k ∧
      ((∃ event ∈ (e.read text).events, event.IsIgnored) ↔ k < (operands (ofText text)).length) ∧
      (k = (operands (ofText text)).length → ∀ op,
        (ofText text).count (.connective op) =
          t.count op + (e.read text).events.countP (Event.IsDiscard op ·)) := by
  obtain ⟨_ | f⟩ := t
  · exact absurd rfl hne
  · obtain ⟨b, s, hrun, hs, rfl⟩ := exists_built_of_parse h
    obtain ⟨rest, hformulas⟩ : ∃ rest, b.formulas = rest ++ [s] :=
      List.getLast?_eq_some_iff.mp hs
    have hconditions : operands (ofText text) =
        s.formula.conditions ++ Built.conditions ⟨rest, []⟩ := by
      rw [← Rule.Assembly.run_conditions hrun]
      simp [Built.conditions, hformulas]
    have hlength := congrArg List.length hconditions
    rw [List.length_append] at hlength
    have hread := read_of_assemble hrun
    have hdropped : (e.read text).dropped = rest.length := by simp [hread, hformulas]
    -- there is nothing besides the first formula exactly when all conditions are in it
    have hrest : (Built.conditions ⟨rest, []⟩).length = 0 ↔ rest.length = 0 := by
      rw [List.length_eq_zero_iff, List.length_eq_zero_iff, Built.conditions_eq_nil_iff]
    refine ⟨s.formula.conditions.length, s.formula.one_le_length_conditions, by omega, ?_, ?_, ?_⟩
    · rw [hconditions, List.take_left]
      rfl
    · rw [Reading.exists_isIgnored_iff, hdropped]
      omega
    · intro hall op
      obtain rfl : rest = [] := List.length_eq_zero_iff.mp (hrest.mp (by omega))
      have hdiscarded : (e.read text).discarded = b.discarded.reverse := by rw [hread]
      have htotal := Rule.Assembly.run_connectives hrun op
      rw [Built.count, hformulas] at htotal
      rw [Reading.countP_isDiscard, hdiscarded, List.count_reverse, ← htotal]
      simp [Rule.count]

/-- Two stray connectives, both of which are reported. -/
theorem parse_accounts_stray :
    Engine.default.parse "OR (a = 1) AND AND (b = 2)" =
        .ok (.ofFormula (.join .and (.leaf "a = 1") (.leaf "b = 2"))) ∧
      (¬ ∃ event ∈ (Engine.default.read "OR (a = 1) AND AND (b = 2)").events, event.IsIgnored) ∧
      ∀ op, (Engine.default.read "OR (a = 1) AND AND (b = 2)").events.countP
        (Event.IsDiscard op ·) = 1 := by
  have hparse : Engine.default.parse "OR (a = 1) AND AND (b = 2)" =
      .ok (.ofFormula (.join .and (.leaf "a = 1") (.leaf "b = 2"))) := by decide
  obtain ⟨k, -, hle, hconditions, hignored, hconnectives⟩ := parse_accounts hparse (by decide)
  have htwo : (operands (ofText "OR (a = 1) AND AND (b = 2)")).length = 2 := by decide
  have hk : k = (operands (ofText "OR (a = 1) AND AND (b = 2)")).length := by
    have hlength := congrArg List.length hconditions
    rw [List.length_take, Nat.min_eq_left hle] at hlength
    rw [← hlength, htwo]
    rfl
  refine ⟨hparse, ?_, fun op => ?_⟩
  · rw [hignored]
    omega
  · have htokens := hconnectives hk op
    have hcount : (ofText "OR (a = 1) AND AND (b = 2)").count (.connective op) =
        (Rule.ofFormula (.join .and (.leaf "a = 1") (.leaf "b = 2"))).count op + 1 := by
      cases op <;> decide
    omega

/-- Formulas that nothing joins: the second is ignored, and with it the connective in it. -/
example :
    Engine.default.parse "(a = 1) (b = 2 OR c = 3)" = .ok (.ofFormula (.leaf "a = 1")) ∧
      (Engine.default.read "(a = 1) (b = 2 OR c = 3)").dropped = 1 := by
  decide

end Engine
end Verdict
