import Mathlib.Algebra.Order.BigOperators.Group.List
import Mathlib.Data.List.Infix
import Verdict.Proofs.Combination
import Verdict.Proofs.Reading
/-
Counting in texts and in formulas.

The connective that joins rules is the one that is counted more often, and an engine counts
either the keywords in the texts or the joins in the formulas.  A keyword lies within one token
of a text, never across two (`Rule.Token.placesIn_ofChars`): so the places at which it is written
are the connectives among the tokens and the places inside of conditions
(`Connective.timesIn_eq_tokens`).  Each join of a formula is one of these connectives, and each
connective is a join or discarded (`Engine.count_add_discarded`).

So a text has at least as many keywords as its formula has joins; and where nothing is
discarded, ignored or written inside of conditions, it has as many, so that the two ways of
counting come to the same (`Engine.tally_of_text`).
-/
namespace Verdict

open Rule (Token assemble)
open Rule.Token (DelimiterAt isWordEdge ofText ofChars ofStretch operands)
open Text (Blank)

/-! ## Places of a keyword -/

namespace Connective

variable {op : Connective}

lemma placesIn_eq_zero_iff {cs : List Char} :
    op.placesIn cs = 0 ↔ ¬ op.keyword.toList <:+: cs := by
  simp only [placesIn, List.countP_eq_zero, List.mem_tails, List.isPrefixOf_iff_prefix,
    List.infix_iff_prefix_suffix, not_exists, not_and]
  exact forall_congr' fun _ => imp_not_comm

/-- Where no two word characters meet, no keyword lies across the seam. -/
lemma placesIn_append {a b : List Char}
    (hseam : isWordEdge a.getLast? = true ∨ isWordEdge b.head? = true) :
    op.placesIn (a ++ b) = op.placesIn a + op.placesIn b := by
  induction a with
  | nil => simp
  | cons c a ih =>
    have hprefix : op.keyword.toList <+: c :: a ++ b ↔ op.keyword.toList <+: c :: a :=
      Token.keyword_prefix_append_iff (by simp) hseam
    have hrest : op.placesIn (a ++ b) = op.placesIn a + op.placesIn b := by
      by_cases hnil : a = []
      · simp [hnil]
      · rw [List.getLast?_cons_of_ne_nil hnil] at hseam
        exact ih hseam
    rw [List.cons_append] at hprefix ⊢
    rw [placesIn_cons, placesIn_cons, hrest, if_congr hprefix rfl rfl]
    omega

lemma placesIn_of_blank {gap : List Char} (hgap : Blank gap) : op.placesIn gap = 0 := by
  rw [placesIn_eq_zero_iff]
  intro hkeyword
  obtain ⟨c, hc⟩ := List.exists_mem_of_ne_nil _ (Token.keyword_ne_nil op)
  have hword := Token.isWordChar_of_mem_keyword op hc
  rw [Text.isWordChar_eq_false_of_isBlank (hgap c (hkeyword.subset hc))] at hword
  cases hword

/-- Gaps around a text hold no keyword, nor a part of one. -/
lemma placesIn_trim (cs : List Char) : op.placesIn (Text.trim cs) = op.placesIn cs := by
  obtain ⟨a, b, ha, hb, hcs⟩ := Text.exists_gaps cs
  conv_rhs => rw [hcs]
  rw [placesIn_append (.inr (Token.isWordEdge_head?_of_blank hb)),
    placesIn_append (.inl (Token.isWordEdge_getLast?_of_blank ha)), placesIn_of_blank ha,
    placesIn_of_blank hb, Nat.zero_add, Nat.add_zero]

end Connective

/-! ## Places in tokens -/

namespace Rule.Token

/-- The number of places of the tokens at which the keyword is written. -/
def placesIn (op : Connective) (ts : List Token) : Nat := (ts.map (op.placesIn ·.written)).sum

variable {op : Connective}

@[simp] lemma placesIn_cons (t : Token) (ts : List Token) :
    placesIn op (t :: ts) = op.placesIn t.written + placesIn op ts := by
  rw [placesIn, List.map_cons, List.sum_cons]
  rfl

@[simp] lemma placesIn_append (ts us : List Token) :
    placesIn op (ts ++ us) = placesIn op ts + placesIn op us := by
  simp only [placesIn, List.map_append, List.sum_append]

/-- A connective is a keyword, and the other places are inside of conditions. -/
lemma placesIn_eq_count (ts : List Token) :
    placesIn op ts = ts.count (.connective op) + ((operands ts).map op.timesIn).sum := by
  induction ts with
  | nil => rfl
  | cons t ts ih =>
    rw [placesIn_cons, ih]
    cases t with
    | opening =>
      have hwritten : op.placesIn (written opening) = 0 := by cases op <;> decide
      rw [hwritten, List.count_cons_of_ne (by simp), operands_opening, Nat.zero_add]
    | closing =>
      have hwritten : op.placesIn (written closing) = 0 := by cases op <;> decide
      rw [hwritten, List.count_cons_of_ne (by simp), operands_closing, Nat.zero_add]
    | connective op' =>
      have hwritten : op.placesIn (written (connective op')) = if op' = op then 1 else 0 := by
        cases op <;> cases op' <;> decide
      have hcount : (connective op' :: ts).count (connective op) =
          ts.count (connective op) + if op' = op then 1 else 0 := by
        simp [List.count_cons]
      rw [hwritten, hcount, operands_connective]
      omega
    | operand text =>
      have hwritten : op.placesIn (written (operand text)) = op.timesIn text := rfl
      rw [hwritten, List.count_cons_of_ne (by simp), operands_operand, List.map_cons,
        List.sum_cons]
      omega

lemma placesIn_ofStretch (cs : List Char) : placesIn op (ofStretch cs) = op.placesIn cs := by
  rw [ofStretch]
  split
  · rename_i hblank
    exact (Connective.placesIn_of_blank hblank).symm
  · rw [placesIn_cons, written, String.toList_ofList, Connective.placesIn_trim]
    rfl

/-- A keyword lies within one token of a text. -/
lemma placesIn_ofChars (cs : List Char) : placesIn op (ofChars cs) = op.placesIn cs := by
  induction cs using pieces_induction with
  | hquiet cs hquiet => rw [ofChars_of_quiet hquiet, placesIn_ofStretch]
  | hfirst cs i t hfirst ih =>
    have hstarts := hfirst.at_.2
    rw [hfirst.at_.drop_eq] at hstarts
    rw [ofChars_of_first hfirst, placesIn_append, placesIn_cons, placesIn_ofStretch, ih]
    conv_rhs => rw [← List.take_append_drop i cs, hfirst.at_.drop_eq]
    rw [Connective.placesIn_append hstarts.edge, Connective.placesIn_append hstarts.edge_behind]

end Rule.Token

/-- The places at which a keyword is written in a text are the connectives among its tokens, and
the places inside of its conditions. -/
theorem Connective.timesIn_eq_tokens (op : Connective) (text : String) :
    op.timesIn text =
      (ofText text).count (.connective op) + ((operands (ofText text)).map op.timesIn).sum := by
  rw [← Token.placesIn_eq_count, Token.ofText_eq_ofChars, Token.placesIn_ofChars]
  rfl

/-- How often a connective is counted. -/
def Tally.count (t : Tally) : Connective → Nat
  | .and => t.ands
  | .or => t.ors

lemma Tally.count_ofText (text : String) (op : Connective) :
    (Tally.ofText text).count op = op.timesIn text := by
  rw [ofText_eq]
  cases op <;> rfl

/-! ## Joins of a formula -/

namespace Engine

variable {e : Engine} {text : String} {t : Rule}

/-- Each join of a formula is a connective of its text. -/
lemma count_le_of_parse (h : e.parse text = .ok t) (op : Connective) :
    t.count op ≤ (ofText text).count (.connective op) := by
  obtain ⟨b, hb, ht⟩ := exists_built_of_parse_eq_ok h
  rw [← Rule.Assembly.run_connectives hb op, Rule.Built.count, Rule.count, ht]
  cases hlast : b.formulas.getLast? with
  | none => exact Nat.zero_le _
  | some s =>
    have hmem : s.formula.count op ∈ b.formulas.map (·.formula.count op) :=
      List.mem_map_of_mem (List.mem_of_getLast? hlast)
    exact (List.le_sum_of_mem hmem).trans (Nat.le_add_right _ _)

/-- Where no formula is dropped, each connective of a text is a join or discarded. -/
lemma count_add_discarded (h : e.parse text = .ok t) (hdropped : (e.read text).dropped = 0)
    (op : Connective) :
    t.count op + (e.read text).discarded.count op = (ofText text).count (.connective op) := by
  obtain ⟨b, hb, ht⟩ := exists_built_of_parse_eq_ok h
  rw [read_of_assemble hb] at hdropped ⊢
  rw [← Rule.Assembly.run_connectives hb op, Rule.Built.count, Rule.count, ht,
    List.count_reverse]
  cases hformulas : b.formulas with
  | nil => rfl
  | cons s rest =>
    obtain rfl : rest = [] := by
      rw [hformulas, List.length_cons, Nat.add_sub_cancel] at hdropped
      exact List.length_eq_zero_iff.mp hdropped
    simp

/-! ## The two ways of counting -/

/-- All keywords in the text stand between conditions, and each of them joins two formulas to
one. -/
structure Plain (e : Engine) (text : String) : Prop where
  keyword_free : ∀ condition ∈ operands (ofText text), ∀ op : Connective,
    ¬ op.keyword.toList <:+: condition.toList
  discarded_eq : (e.read text).discarded = []
  dropped_eq : (e.read text).dropped = 0

lemma Plain.timesIn_eq (hplain : e.Plain text) (h : e.parse text = .ok t) (op : Connective) :
    op.timesIn text = t.count op := by
  have hfree : ((operands (ofText text)).map op.timesIn).sum = 0 := by
    refine List.sum_eq_zero fun n hn => ?_
    obtain ⟨condition, hcondition, rfl⟩ := List.mem_map.mp hn
    exact Connective.placesIn_eq_zero_iff.mpr (hplain.keyword_free condition hcondition op)
  have hcount := count_add_discarded h hplain.dropped_eq op
  rw [hplain.discarded_eq, List.count_nil, Nat.add_zero] at hcount
  rw [op.timesIn_eq_tokens, hfree, Nat.add_zero, hcount]

variable {texts : List String} {rules : List Rule}

lemma map_timesIn_eq (hrules : List.Forall₂ (fun text rule => e.parse text = .ok rule) texts rules)
    (hplain : ∀ text ∈ texts, ∀ t, e.parse text = .ok t → e.Plain text) (op : Connective) :
    texts.map op.timesIn = rules.map (·.connectives.count op) := by
  induction hrules with
  | nil => rfl
  | @cons text rule texts rules hparse _ ih =>
    obtain ⟨hhead, htail⟩ := List.forall_mem_cons.mp hplain
    rw [List.map_cons, List.map_cons, (hhead rule hparse).timesIn_eq hparse op, rule.count_eq,
      ih htail]

/-- It does not matter then which way an engine counts. -/
lemma total_of_plain (hrules : List.Forall₂ (fun text rule => e.parse text = .ok rule) texts rules)
    (hplain : ∀ text ∈ texts, ∀ t, e.parse text = .ok t → e.Plain text) (counting : Counting)
    (op : Connective) :
    total { e with counting := counting } op texts rules =
      (rules.map (·.connectives.count op)).sum := by
  cases counting with
  | textual => exact congrArg List.sum (map_timesIn_eq hrules hplain op)
  | parsed => rfl

lemma combine_of_plain (hplain : ∀ text ∈ texts, ∀ t, e.parse text = .ok t → e.Plain text)
    (counting : Counting) :
    combine { e with counting := counting } texts = e.combine texts := by
  have hparse : parse { e with counting := counting } = e.parse := rfl
  cases hmap : texts.mapM e.parse with
  | error error =>
    rw [combine_eq, combine_eq, hparse, hmap]
    rfl
  | ok rules =>
    have hrules := e.mapM_eq_ok_iff.mp hmap
    have htotal (op : Connective) :
        total { e with counting := counting } op texts rules = e.total op texts rules :=
      (total_of_plain hrules hplain counting op).trans
        (total_of_plain hrules hplain e.counting op).symm
    have hdominant : dominant { e with counting := counting } texts rules =
        e.dominant texts rules := by
      rw [dominant, dominant, htotal, htotal]
    rw [combine_of_parsed hrules, combine_of_parsed (hparse ▸ hrules), hdominant]

/-- **Counting in texts and in formulas.**  A keyword is written in a text as often as it is a
connective there, together with the places inside of conditions; and at least as often as its
connective joins two formulas of the rule that is read.  So if, in each text that is a rule, no
condition has a keyword in it, no connective is discarded and no condition is ignored, then it
makes no difference to a combination where an engine counts. -/
theorem tally_of_text :
    (∀ text op, (Tally.ofText text).count op =
      (ofText text).count (.connective op) + ((operands (ofText text)).map op.timesIn).sum) ∧
    (∀ (e : Engine) text t op, e.parse text = .ok t → t.count op ≤ (Tally.ofText text).count op) ∧
    ∀ (e : Engine) texts, (∀ text ∈ texts, ∀ t, e.parse text = .ok t → e.Plain text) →
      ∀ counting, combine { e with counting := counting } texts = e.combine texts := by
  refine ⟨fun text op => ?_, fun e text t op h => ?_, fun e texts hplain counting => ?_⟩
  · rw [Tally.count_ofText, op.timesIn_eq_tokens]
  · calc t.count op
        ≤ (ofText text).count (.connective op) := count_le_of_parse h op
      _ ≤ op.timesIn text := op.timesIn_eq_tokens text ▸ Nat.le_add_right _ _
      _ = (Tally.ofText text).count op := (Tally.count_ofText text op).symm
  · exact combine_of_plain hplain counting

/-- Two rules that are combined alike, and one whose keyword inside of a condition counts only
where its text is counted. -/
theorem tally_of_text_quoted :
    (∀ text ∈ ["a = 1 OR b = 2", "c = 3"], ∀ t, Engine.default.parse text = .ok t →
      Engine.default.Plain text) ∧
    (∀ counting, combine { Engine.default with counting := counting } ["a = 1 OR b = 2", "c = 3"] =
      .ok (.ofFormula (.join .or (.join .or (.leaf "a = 1") (.leaf "b = 2")) (.leaf "c = 3")))) ∧
    (Rule.ofFormula (.leaf "a = 'OR'")).count .or ≤ (Tally.ofText "a = 'OR'").count .or ∧
    (Tally.ofText "a = 'OR'").count .or = 1 := by
  obtain ⟨-, hle, hcombine⟩ := tally_of_text
  have hkeywords : ∀ text ∈ ["a = 1 OR b = 2", "c = 3"], ∀ condition ∈ operands (ofText text),
      ∀ op ∈ [Connective.and, .or], ¬ op.keyword.toList <:+: condition.toList := by decide
  have hreading : ∀ text ∈ ["a = 1 OR b = 2", "c = 3"],
      (Engine.default.read text).discarded = [] ∧ (Engine.default.read text).dropped = 0 := by
    decide
  have hplain : ∀ text ∈ ["a = 1 OR b = 2", "c = 3"], ∀ t, Engine.default.parse text = .ok t →
      Engine.default.Plain text := by
    intro text htext _ _
    refine ⟨fun condition hcondition op => ?_, (hreading text htext).1, (hreading text htext).2⟩
    exact hkeywords text htext condition hcondition op (by cases op <;> decide)
  refine ⟨hplain, fun counting => ?_, hle .default _ _ .or (by decide), by decide⟩
  rw [hcombine _ _ hplain counting]
  decide

end Engine

end Verdict
