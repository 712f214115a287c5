import Verdict.Archive.Payload
import Verdict.Proofs.Archive.Bytes
import Verdict.Proofs.Rule.Formula
/-
Payloads, read back.

The reader of formulas keeps the joins that it has entered as a list of holes.  What it
makes of a written formula therefore depends on the holes: the formula is put into the
innermost one, and reading goes on with the bytes behind it (`readFormula_writeFormula`).
Stated so, the induction on the formula needs nothing else; where there is no hole, the
formula itself is what has been read.

A formula takes at least as many bytes as it has conditions, and as each of its conditions
has.  So none of the counts in a payload of less than 4 GiB is cut off, and the payload is
read back as it was (`Payload.decode_encode`).
-/
namespace Verdict.Archive

/-! ## One node -/

section Node

variable {holes : List Hole} {bytes rest rest' : List UInt8}

lemma readFormula_leaf {text : String} (hkind : readInteger 4 bytes = .ok (0, rest))
    (htext : readText rest = .ok (text, rest')) :
    readFormula holes bytes =
      match fill (.leaf text) holes with
      | .inl f => .ok (f, rest')
      | .inr holes => readFormula holes rest' := by
  rw [readFormula, hkind]
  split
  case h_2 h =>
    cases h
    split
    · rename_i h
      rw [htext] at h
      cases h
    · rename_i h
      rw [htext] at h
      cases h
      rfl
  case h_5 hleaf _ _ h =>
    cases h
    exact absurd rfl (hleaf rest)
  all_goals
    rename_i h
    simp at h

lemma readFormula_join (op : Connective)
    (hkind : readInteger 4 bytes = .ok ((kindOf op).toNat, rest)) :
    readFormula holes bytes = readFormula (.left op :: holes) rest := by
  rw [readFormula, hkind]
  cases op <;> rfl

end Node

/-! ## Formulas -/

/-- A written formula goes into the innermost hole, whatever the holes are and whatever
bytes follow. -/
theorem readFormula_writeFormula {f : Formula}
    (h : ∀ text ∈ f.conditions, (utf8 text).length < 2 ^ 64) (holes : List Hole)
    (rest : List UInt8) :
    readFormula holes (writeFormula f rest) =
      match fill f holes with
      | .inl g => .ok (g, rest)
      | .inr holes => readFormula holes rest := by
  induction f generalizing holes rest with
  | leaf text =>
    have hkind : readInteger 4 (writeFormula (.leaf text) rest) = .ok (0, writeText text ++ rest) :=
      readInteger_writeInteger (Or.inr (by decide)) _
    exact readFormula_leaf hkind (readText_writeText (h text List.mem_cons_self) rest)
  | join op left right ihl ihr =>
    have hleft := ihl fun text htext => h text (List.mem_append_left _ htext)
    have hright := ihr fun text htext => h text (List.mem_append_right _ htext)
    have hkind : readInteger 4 (writeFormula (.join op left right) rest) =
        .ok ((kindOf op).toNat, writeFormula left (writeFormula right rest)) :=
      readInteger_writeInteger (Or.inr ⟨Nat.le_refl 4, by cases op <;> decide⟩) _
    -- the left side fills the hole that the join has opened, and opens the one on its right
    rw [readFormula_join op hkind, hleft]
    show readFormula (.right op left :: holes) (writeFormula right rest) = _
    rw [hright]
    rfl

/-- Every condition takes a byte for its kind besides its own bytes. -/
lemma length_conditions_le (f : Formula) (rest : List UInt8) :
    f.conditions.length + rest.length ≤ (writeFormula f rest).length := by
  induction f generalizing rest with
  | leaf text =>
    have hkind := List.length_pos_iff.mpr (writeInteger_ne_nil 0)
    simp only [writeFormula, List.length_append, Formula.conditions, List.length_singleton]
    omega
  | join op left right ihl ihr =>
    have hleft := ihl (writeFormula right rest)
    have hright := ihr rest
    rw [Formula.length_conditions_join, writeFormula, List.length_append]
    omega

lemma length_utf8_le {f : Formula} {text : String} (h : text ∈ f.conditions)
    (rest : List UInt8) : (utf8 text).length + rest.length ≤ (writeFormula f rest).length := by
  induction f generalizing rest with
  | leaf text' =>
    obtain rfl := List.mem_singleton.mp h
    simp only [writeFormula, writeText, List.length_append]
    omega
  | join op left right ihl ihr =>
    have hrest := length_conditions_le right rest
    rw [writeFormula, List.length_append]
    rcases List.mem_append.mp h with hmem | hmem
    · have hleft := ihl hmem (writeFormula right rest)
      omega
    · have hright := ihr hmem rest
      have hleft := length_conditions_le left (writeFormula right rest)
      omega

/-! ## Payloads -/

namespace Payload

lemma readOptional_some {f : Formula} (h : ∀ text ∈ f.conditions, (utf8 text).length < 2 ^ 64) :
    readOptional (1 :: writeFormula f []) = .ok (some f, []) := by
  show (readFormula [] (writeFormula f [])).map _ = _
  rw [readFormula_writeFormula h]
  rfl

/-- A payload is read back, if the lengths of its texts fit into the fields for them. -/
theorem decode_encode {p : Payload}
    (h : ∀ f, p.formula? = some f → ∀ text ∈ f.conditions, (utf8 text).length < 2 ^ 64) :
    decode p.encode = .ok p := by
  obtain ⟨leaves, depth, formula?⟩ := p
  have hinteger (n : UInt64) (rest : List UInt8) :
      readInteger 8 (writeInteger n ++ rest) = .ok (n.toNat, rest) :=
    readInteger_writeInteger (Or.inl (Nat.le_refl 8)) rest
  simp only [decode, encode, hinteger, bind, Except.bind, pure, Except.pure, UInt64.ofNat_toNat]
  cases formula? with
  | none => rfl
  | some f => simp only [readOptional_some (h f rfl)]

end Payload

end Verdict.Archive
