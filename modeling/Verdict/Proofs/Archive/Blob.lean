import Verdict.Proofs.Archive.Header
import Verdict.Proofs.Archive.Payload
import Verdict.Proofs.Check
/-
Archives, read back.

Behind a header that announces it, a payload is read back and validated (`decode_of_fits`).
Validation walks through the formula once, and finds of it what is known otherwise: whether its
conditions can be split, in their order, and the numbers of its leaves and levels (`survey_eq`).
The payload of a rule declares these numbers as they are (`Payload.validate_ofRule`).  What is
left to decide between success and failure are the conditions (`decode_encode_rule`).
-/
namespace Verdict.Archive

/-- The rule in a payload. -/
def Payload.rule (p : Payload) : Rule := ⟨p.formula?⟩

/-! ## Validation -/

/-- One walk through a formula checks its conditions and counts its leaves and levels. -/
lemma survey_eq (f : Formula) (leaves : Nat) :
    survey f leaves =
      match Condition.checkAll f.conditions with
      | .ok () => .ok (f.depth, leaves + f.conditions.length)
      | .error error => .error error := by
  induction f generalizing leaves with
  | leaf text =>
    rw [survey, Formula.conditions, Condition.checkAll, Condition.checkAll]
    cases Condition.split text <;> rfl
  | join op left right ihl ihr =>
    rw [survey, Formula.conditions, Condition.checkAll_append, ihl]
    cases Condition.checkAll left.conditions with
    | error error => rfl
    | ok _ =>
      -- the walk goes on with the leaves that are counted so far
      simp only [bind, Except.bind, ihr]
      cases Condition.checkAll right.conditions with
      | error error => rfl
      | ok _ => rw [List.length_append, ← Nat.add_assoc]; rfl

namespace Payload

variable {p : Payload}

/-- A payload is checked against its conditions, the number of them and the levels, in this
order. -/
lemma validate_eq (p : Payload) :
    p.validate =
      match Condition.checkAll p.rule.conditions with
      | .error error => .error (.malformedCondition error)
      | .ok () =>
        if p.leaves.toNat ≠ p.rule.conditions.length then
          .error (.leavesMismatch p.leaves.toNat p.rule.conditions.length)
        else if p.depth.toNat ≠ p.rule.depth then
          .error (.depthMismatch p.depth.toNat p.rule.depth)
        else .ok p.rule := by
  obtain ⟨leaves, depth, _ | f⟩ := p
  · rfl
  · have hsurvey := survey_eq f 0
    rw [Nat.zero_add] at hsurvey
    rw [validate, Option.elim_some, hsurvey, rule, Rule.conditions, Option.elim_some]
    cases Condition.checkAll f.conditions <;> rfl

/-- Where all conditions can be split, the declared numbers decide. -/
lemma validate_of_split
    (h : ∀ text ∈ p.rule.conditions, ∃ parts, Condition.split text = .ok parts) :
    p.validate =
      if p.leaves.toNat ≠ p.rule.conditions.length then
        .error (.leavesMismatch p.leaves.toNat p.rule.conditions.length)
      else if p.depth.toNat ≠ p.rule.depth then
        .error (.depthMismatch p.depth.toNat p.rule.depth)
      else .ok p.rule := by
  rw [validate_eq, Condition.checkAll_eq_ok h]

lemma validate_of_malformed {error : ConditionError}
    (h : Condition.checkAll p.rule.conditions = .error error) :
    p.validate = .error (.malformedCondition error) := by
  rw [validate_eq, h]

/-- A payload is valid if all of its conditions can be split and all that it declares is true. -/
lemma validate_eq_ok_iff {t : Rule} :
    p.validate = .ok t ↔
      (∀ text ∈ p.rule.conditions, ∃ parts, Condition.split text = .ok parts) ∧
      p.leaves.toNat = p.rule.conditions.length ∧ p.depth.toNat = p.rule.depth ∧ t = p.rule := by
  constructor
  · intro h
    cases hcheck : Condition.checkAll p.rule.conditions with
    | error error =>
      rw [validate_of_malformed hcheck] at h
      cases h
    | ok _ =>
      have hsplit := Condition.split_of_checkAll hcheck
      rw [validate_of_split hsplit] at h
      split_ifs at h with hleaves hdepth
      exact ⟨hsplit, not_not.mp hleaves, not_not.mp hdepth, (Except.ok.inj h).symm⟩
  · rintro ⟨hsplit, hleaves, hdepth, rfl⟩
    rw [validate_of_split hsplit, if_neg (not_not.mpr hleaves), if_neg (not_not.mpr hdepth)]

/-- Leaves and levels are counted on both sides alike, so that only the conditions of a
rule decide whether its payload is valid. -/
lemma validate_ofRule {r : Rule} (hleaves : r.conditions.length < 2 ^ 64)
    (hdepth : r.depth < 2 ^ 64) :
    (Payload.ofRule r).validate =
      match Condition.checkAll r.conditions with
      | .ok () => .ok r
      | .error error => .error (.malformedCondition error) := by
  have hrule : (ofRule r).rule = r := rfl
  have hleaves' : (ofRule r).leaves.toNat = r.conditions.length :=
    UInt64.toNat_ofNat_of_lt' hleaves
  have hdepth' : (ofRule r).depth.toNat = r.depth := UInt64.toNat_ofNat_of_lt' hdepth
  rw [validate_eq, hrule, hleaves', hdepth', if_neg (not_not.mpr rfl), if_neg (not_not.mpr rfl)]
  cases Condition.checkAll r.conditions <;> rfl

end Payload

/-! ## Rules -/

/-- A payload is longer than its rule has conditions or levels, and than any of the texts. -/
lemma lt_of_length_payload {p : Payload} {bound : Nat} (h : p.encode.length < bound) :
    p.rule.conditions.length < bound ∧ p.rule.depth < bound ∧
      ∀ text ∈ p.rule.conditions, (utf8 text).length < bound := by
  obtain ⟨leaves, depth, _ | f⟩ := p
  · have hpos : 0 < bound := Nat.lt_of_le_of_lt (Nat.zero_le _) h
    exact ⟨hpos, hpos, by simp [Payload.rule, Rule.conditions]⟩
  · have hformula : (writeFormula f []).length < bound := by
      simp only [Payload.encode, List.length_append, List.length_cons] at h
      omega
    have hleaves := length_conditions_le f []
    have hdepth := f.depth_le_length_conditions
    rw [List.length_nil, Nat.add_zero] at hleaves
    refine ⟨?_, ?_, fun text htext => ?_⟩
    · show f.conditions.length < bound
      omega
    · show f.depth < bound
      omega
    · have htext' := length_utf8_le (f := f) htext []
      rw [List.length_nil, Nat.add_zero] at htext'
      omega

/-- Behind a header that announces it, a payload is read back and validated. -/
lemma decode_of_fits {h : Header} {p : Payload} (hfits : h.Fits p.encode) :
    decode (h.bytes ++ p.encode) = p.validate := by
  obtain ⟨-, -, htexts⟩ := lt_of_length_payload hfits.length_lt
  have hpayload : Payload.decode p.encode = .ok p := by
    refine Payload.decode_encode fun f hf text htext => ?_
    have hmem : text ∈ p.rule.conditions := by
      rw [Payload.rule, Rule.conditions, hf]
      exact htext
    have hlt := htexts text hmem
    omega
  rw [decode, hfits.unframe_payload]
  simp only [hpayload]

/-- Reading the archive of a rule is checking its conditions. -/
lemma decode_encode_eq {r : Rule} (hsize : (Payload.ofRule r).encode.length < 2 ^ 32) :
    decode (encode r) =
      match Condition.checkAll r.conditions with
      | .ok () => .ok r
      | .error error => .error (.malformedCondition error) := by
  obtain ⟨hleaves, hdepth, -⟩ := lt_of_length_payload hsize
  rw [encode, frame_eq, decode_of_fits (Header.fits_ofPayload hsize)]
  exact Payload.validate_ofRule (hleaves.trans (by decide)) (hdepth.trans (by decide))

/-- **The archive of a rule is read back.**  Let the payload of a rule be shorter than 4 GiB.
If all conditions of the rule can be split, its archive is read back as the rule itself; else
the error is that of the first condition which cannot. -/
theorem decode_encode_rule {r : Rule} (hsize : (Payload.ofRule r).encode.length < 2 ^ 32) :
    ((∀ text ∈ r.conditions, ∃ parts, Condition.split text = .ok parts) →
      decode (encode r) = .ok r) ∧
    ∀ before text after error, r.conditions = before ++ text :: after →
      (∀ earlier ∈ before, ∃ parts, Condition.split earlier = .ok parts) →
      Condition.split text = .error error →
        decode (encode r) = .error (.malformedCondition error) ∧
        (ArchiveError.malformedCondition error).message =
          "validation failed: " ++ error.message := by
  refine ⟨fun hsplit => ?_, fun before text after error hconditions hbefore htext => ⟨?_, rfl⟩⟩
  · rw [decode_encode_eq hsize, Condition.checkAll_eq_ok hsplit]
  · rw [decode_encode_eq hsize, hconditions, Condition.checkAll_eq_error hbefore htext]

/-- A rule with a quoted parenthesis and a letter of two bytes, and one whose last two
conditions are none. -/
theorem decode_encode_rule_nested :
    decode (encode (.ofFormula (.join .or (.leaf "a = 'ä AND (b'")
        (.join .and (.leaf "x >= 1") (.leaf "y != 2"))))) =
      .ok (.ofFormula (.join .or (.leaf "a = 'ä AND (b'")
        (.join .and (.leaf "x >= 1") (.leaf "y != 2")))) ∧
    decode (encode (.ofFormula (.join .or (.leaf "x >= 1")
        (.join .and (.leaf "y >> 2") (.leaf "z"))))) =
      .error (.malformedCondition (.unsupportedComparator "y >> 2" ">>")) := by
  constructor
  · refine (decode_encode_rule (by decide)).1 ?_
    intro text htext
    simp only [Rule.conditions, Rule.ofFormula, Option.elim_some, Formula.conditions,
      List.cons_append, List.nil_append, List.mem_cons, List.not_mem_nil, or_false] at htext
    rcases htext with rfl | rfl | rfl
    · exact ⟨⟨"a", .equal, "'ä AND (b'"⟩, by decide⟩
    · exact ⟨⟨"x", .greaterEqual, "1"⟩, by decide⟩
    · exact ⟨⟨"y", .notEqual, "2"⟩, by decide⟩
  · refine ((decode_encode_rule (by decide)).2 ["x >= 1"] "y >> 2" ["z"] _ rfl ?_ (by decide)).1
    intro text htext
    obtain rfl := List.mem_singleton.mp htext
    exact ⟨⟨"x", .greaterEqual, "1"⟩, by decide⟩

end Verdict.Archive
