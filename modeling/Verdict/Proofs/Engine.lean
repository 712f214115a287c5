import Verdict.Proofs.Rule.Piece
import Verdict.Proofs.Rule.Turn
/-
What an engine reads.

`Engine.parse` is the assembly of the tokens of a text, and the first of the formulas that
have been built (`Engine.parse_eq`).  A text whose tokens are a sentence of the grammar is
read as the tree of its derivation (`Engine.parse_of_derivation`).

Any formula that is read, of a sentence of the grammar or not, is `Formula.Readable`: it
keeps to the limit, and each of its conditions can be split and is a single token when it
stands alone.
-/
namespace Verdict

open Rule (Token Derivation assemble)

/-- The formula keeps to the limit, and each of its conditions is one when read alone. -/
structure Formula.Readable (limit : Nat) (f : Formula) : Prop where
  depth_le : f.depth ≤ limit
  ofText_eq : ∀ text ∈ f.conditions, Token.ofText text = [.operand text]
  split_ok : ∀ text ∈ f.conditions, ∃ parts, Condition.split text = .ok parts

namespace Engine

lemma parse_eq (e : Engine) (text : String) :
    e.parse text =
      match assemble e.maxDepth (Token.ofText text) with
      | .error stop => .error (e.errorOf text stop.fault)
      | .ok built => e.firstOf text built.formulas := by
  rw [parse, read]
  cases assemble e.maxDepth (Token.ofText text) <;> rfl

/-- **The grammar is met.**  A text whose tokens have a derivation is read as the tree of
the derivation, if that keeps to the limit, and is too deep otherwise. -/
theorem parse_of_derivation (e : Engine) (text : String) (d : Derivation .disjunction)
    (htokens : Token.ofText text = d.tokens)
    (hsplit : ∀ condition ∈ Token.operands (Token.ofText text),
      ∃ parts, Condition.split condition = .ok parts) :
    e.parse text =
      if d.tree.depth ≤ e.maxDepth then .ok (.ofFormula d.tree)
      else .error (.tooDeep e.maxDepth) := by
  rw [htokens] at hsplit
  rw [parse_eq, htokens, Rule.assemble_derivation e.one_le_maxDepth d hsplit]
  by_cases hd : d.tree.depth ≤ e.maxDepth
  · simp [hd, firstOf]
  · simp [hd, errorOf]

/-- The derivation of `condition OR (condition OR condition) AND condition`, read under two
limits. -/
theorem parse_of_derivation_nested :
    Engine.default.parse "a = 1 OR (b = 2 OR c = 3) AND d = 4" =
        .ok (.ofFormula (.join .or (.leaf "a = 1")
          (.join .and (.join .or (.leaf "b = 2") (.leaf "c = 3")) (.leaf "d = 4")))) ∧
      (Engine.default.withMaxDepth 3).parse "a = 1 OR (b = 2 OR c = 3) AND d = 4" =
        .error (.tooDeep 3) := by
  let d : Derivation .disjunction :=
    .or (.conjunction (.factor (.operand "a = 1")))
      (.and (.factor (.group (.or (.conjunction (.factor (.operand "b = 2")))
        (.factor (.operand "c = 3"))))) (.operand "d = 4"))
  have htokens : Token.ofText "a = 1 OR (b = 2 OR c = 3) AND d = 4" = d.tokens := by decide
  have hsplit : ∀ condition ∈ Token.operands (Token.ofText "a = 1 OR (b = 2 OR c = 3) AND d = 4"),
      ∃ parts, Condition.split condition = .ok parts := by
    rw [htokens]
    intro condition hcondition
    simp only [d, Derivation.tokens, Token.operands_operand, Token.operands_opening,
      Token.operands_closing, Token.operands_connective, Token.operands_nil, List.cons_append,
      List.nil_append, List.mem_cons, List.not_mem_nil, or_false] at hcondition
    rcases hcondition with rfl | rfl | rfl | rfl
    · exact ⟨⟨"a", .equal, "1"⟩, by decide⟩
    · exact ⟨⟨"b", .equal, "2"⟩, by decide⟩
    · exact ⟨⟨"c", .equal, "3"⟩, by decide⟩
    · exact ⟨⟨"d", .equal, "4"⟩, by decide⟩
  exact ⟨parse_of_derivation _ _ d htokens hsplit, parse_of_derivation _ _ d htokens hsplit⟩

/-! ## What is known of a formula that was read -/

/-- A rule that was read is the first of the formulas that were built, if there is one. -/
lemma exists_built_of_parse_eq_ok {e : Engine} {text : String} {t : Rule}
    (h : e.parse text = .ok t) :
    ∃ b, assemble e.maxDepth (Token.ofText text) = .ok b ∧
      t.formula? = b.formulas.getLast?.map (·.formula) := by
  rw [parse_eq] at h
  cases hb : assemble e.maxDepth (Token.ofText text) with
  | error stop => simp [hb] at h
  | ok b =>
    refine ⟨b, rfl, ?_⟩
    simp only [hb, firstOf] at h
    split at h
    · rename_i s hs
      rw [hs, ← Except.ok.inj h]
      rfl
    · rename_i hs _
      rw [hs, ← Except.ok.inj h]
      rfl
    · cases h

/-- A formula that was read is the first of those that were built. -/
lemma exists_built_of_parse {e : Engine} {text : String} {f : Formula}
    (h : e.parse text = .ok (.ofFormula f)) :
    ∃ b s, assemble e.maxDepth (Token.ofText text) = .ok b ∧ b.formulas.getLast? = some s ∧
      s.formula = f := by
  obtain ⟨b, hb, hf⟩ := exists_built_of_parse_eq_ok h
  obtain ⟨s, hs, rfl⟩ := Option.map_eq_some_iff.mp hf.symm
  exact ⟨b, s, hb, hs, rfl⟩

/-- The conditions of the first formula are the first of all conditions. -/
lemma conditions_of_first {b : Rule.Built} {s : Rule.Sized} (h : b.formulas.getLast? = some s) :
    s.formula.conditions <+: b.conditions := by
  rw [← List.head?_reverse] at h
  obtain ⟨rest, hrest⟩ := List.head?_eq_some_iff.mp h
  refine ⟨rest.flatMap (·.formula.conditions), ?_⟩
  rw [Rule.Built.conditions, hrest, List.flatMap_cons]

/-- A formula holds the first of the conditions that its text has. -/
theorem conditions_of_parse {e : Engine} {text : String} {f : Formula}
    (h : e.parse text = .ok (.ofFormula f)) :
    f.conditions <+: Token.operands (Token.ofText text) := by
  obtain ⟨b, s, hb, hs, rfl⟩ := exists_built_of_parse h
  rw [← Rule.Assembly.run_conditions hb]
  exact conditions_of_first hs

theorem readable_of_parse {e : Engine} {text : String} {f : Formula}
    (h : e.parse text = .ok (.ofFormula f)) : f.Readable e.maxDepth := by
  have hfirst := conditions_of_parse h
  obtain ⟨b, s, hb, hs, rfl⟩ := exists_built_of_parse h
  have hsized := Rule.Assembly.run_sized e.one_le_maxDepth hb s (List.mem_of_getLast? hs)
  refine ⟨hsized.1 ▸ hsized.2, fun condition hcondition => ?_, fun condition hcondition => ?_⟩
  · exact Token.ofText_of_mem_operands (hfirst.subset hcondition)
  · exact Rule.Assembly.run_split hb condition ((conditions_of_first hs).subset hcondition)

end Engine
end Verdict
