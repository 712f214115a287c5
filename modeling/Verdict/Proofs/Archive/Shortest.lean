import Verdict.Proofs.Archive.Blob
/-
Archives from elsewhere.

A reader takes more than a writer makes: integers may stand there in longer forms, and bytes
may follow where nothing is read any more.  It takes nothing shorter, though, for what is
written of a value is the shortest form of it (`length_writeInteger_le`).  So whatever is read
from some bytes is written again in no more bytes, and a rule that came out of an archive fits
into one (`length_payload_of_decode`).
-/
namespace Verdict.Archive

/-! ## Integers and texts -/

lemma integerSize?_eq_some {width size : Nat} {tag : UInt8}
    (h : integerSize? width tag = some size) : size = 2 ∨ size = 4 ∨ size = 8 := by
  obtain ⟨hlookup, -⟩ := Option.filter_eq_some_iff.mp h
  obtain ⟨before, after, hforms, -⟩ := List.lookup_eq_some_iff.mp hlookup
  have hmem : (tag, size) ∈ ([(251, 2), (252, 4), (253, 8)] : List (UInt8 × Nat)) := by
    rw [hforms]
    exact List.mem_append_right _ List.mem_cons_self
  simp only [List.mem_cons, Prod.mk.injEq, List.not_mem_nil, or_false] at hmem
  rcases hmem with ⟨-, h⟩ | ⟨-, h⟩ | ⟨-, h⟩
  · exact .inl h
  · exact .inr (.inl h)
  · exact .inr (.inr h)

/-- An integer that fits into one of the longer forms is not written in more bytes. -/
lemma length_writeInteger_le {n : UInt64} {size : Nat} (hsize : size = 2 ∨ size = 4 ∨ size = 8)
    (hn : n.toNat < 256 ^ size) : (writeInteger n).length ≤ size + 1 := by
  rw [writeInteger]
  -- the writer never picks a form beyond this one, as the integer fits here
  rcases hsize with rfl | rfl | rfl
  all_goals
    split_ifs
    all_goals
      simp only [List.length_cons, length_littleEndian]
      omega

lemma length_writeInteger_of_le {n : UInt64} (h : n.toNat ≤ 250) : (writeInteger n).length = 1 := by
  rw [writeInteger]
  simp only [h, if_true, length_littleEndian]

/-- What an integer is read from: a byte that is its own tag, or a tag and the digits that it
announces. -/
lemma exists_of_readInteger {width n : Nat} {bytes rest : List UInt8}
    (h : readInteger width bytes = .ok (n, rest)) :
    ∃ tag digits, bytes = tag :: (digits ++ rest) ∧
      ((tag.toNat ≤ 250 ∧ digits = [] ∧ n = tag.toNat) ∨
        (integerSize? width tag = some digits.length ∧ n = ofLittleEndian digits)) := by
  cases bytes with
  | nil => simp [readInteger] at h
  | cons tag bytes =>
    rw [readInteger] at h
    split at h
    · rename_i htag
      simp only [Except.ok.injEq, Prod.mk.injEq] at h
      obtain ⟨rfl, rfl⟩ := h
      exact ⟨tag, [], rfl, .inl ⟨UInt8.le_iff_toNat_le.mp htag, rfl, rfl⟩⟩
    · split at h
      · simp at h
      · rename_i size hsize
        cases htake : takeBytes size bytes with
        | error e => simp [htake, Except.map] at h
        | ok taken =>
          obtain ⟨digits, rest'⟩ := taken
          simp only [htake, Except.map, Except.ok.injEq, Prod.mk.injEq] at h
          obtain ⟨rfl, rfl⟩ := h
          obtain ⟨rfl, rfl⟩ := takeBytes_eq htake
          exact ⟨tag, digits, rfl, .inr ⟨hsize, rfl⟩⟩

/-- An integer is written in no more bytes than it was read from. -/
lemma length_writeInteger_le_of_read {width n : Nat} {bytes rest : List UInt8}
    (h : readInteger width bytes = .ok (n, rest)) :
    n < 2 ^ 64 ∧ (writeInteger (.ofNat n)).length + rest.length ≤ bytes.length := by
  obtain ⟨tag, digits, rfl, ⟨htag, rfl, rfl⟩ | ⟨hsize, rfl⟩⟩ := exists_of_readInteger h
  · have hn : tag.toNat < 2 ^ 64 := tag.toNat_lt.trans (by decide)
    rw [length_writeInteger_of_le (by rwa [UInt64.toNat_ofNat_of_lt' hn]), List.length_cons,
      List.nil_append]
    exact ⟨hn, by omega⟩
  · have hsize' := integerSize?_eq_some hsize
    have hlt := ofLittleEndian_lt digits
    have hn : ofLittleEndian digits < 2 ^ 64 :=
      hlt.trans_le (Nat.pow_le_pow_right (n := 256) (by decide) (by omega : digits.length ≤ 8))
    have hlength := length_writeInteger_le (n := .ofNat (ofLittleEndian digits)) hsize'
      (by rwa [UInt64.toNat_ofNat_of_lt' hn])
    rw [List.length_cons, List.length_append]
    exact ⟨hn, by omega⟩

lemma utf8_of_ofUtf8? {bytes : List UInt8} {text : String} (h : ofUtf8? bytes = some text) :
    utf8 text = bytes := by
  rw [ofUtf8?, String.fromUTF8?] at h
  split at h
  · rw [Option.some.injEq] at h
    rw [← h]
    rfl
  · simp at h

/-- A text is written in no more bytes than it was read from. -/
lemma length_writeText_le_of_read {text : String} {bytes rest : List UInt8}
    (h : readText bytes = .ok (text, rest)) :
    (writeText text).length + rest.length ≤ bytes.length := by
  rw [readText] at h
  split at h
  · simp at h
  · rename_i size bytes' hsize
    split at h
    · simp at h
    · rename_i content rest' htake
      split at h
      · rename_i text' htext
        simp only [Except.ok.injEq, Prod.mk.injEq] at h
        obtain ⟨rfl, rfl⟩ := h
        obtain ⟨rfl, rfl⟩ := takeBytes_eq htake
        have hlength := (length_writeInteger_le_of_read hsize).2
        rw [writeText, utf8_of_ofUtf8? htext, List.length_append]
        rw [List.length_append] at hlength
        omega
      · simp at h

/-! ## Formulas -/

/-- The number of bytes of a formula. -/
def formulaSize (f : Formula) : Nat := (writeFormula f []).length

lemma length_writeFormula (f : Formula) (rest : List UInt8) :
    (writeFormula f rest).length = formulaSize f + rest.length := by
  induction f generalizing rest with
  | leaf text => simp [formulaSize, writeFormula, Nat.add_assoc]
  | join op left right ihl ihr =>
    simp only [formulaSize, writeFormula, List.length_append]
    rw [ihl, ihr, ihl (writeFormula right []), ihr []]
    simp only [List.length_nil]
    omega

lemma formulaSize_join (op : Connective) (left right : Formula) :
    formulaSize (.join op left right) = 1 + formulaSize left + formulaSize right := by
  have hkind : (writeInteger (kindOf op)).length = 1 := by cases op <;> decide
  show (writeInteger (kindOf op) ++ writeFormula left (writeFormula right [])).length = _
  rw [List.length_append, hkind, length_writeFormula, length_writeFormula, List.length_nil]
  omega

/-- The number of bytes that lead to the innermost of the holes. -/
def holesSize : List Hole → Nat
  | [] => 0
  | .left _ :: holes => 1 + holesSize holes
  | .right _ left :: holes => 1 + formulaSize left + holesSize holes

lemma formulaSize_of_fill {f g : Formula} {holes : List Hole} (h : fill f holes = .inl g) :
    formulaSize g = formulaSize f + holesSize holes := by
  induction holes generalizing f with
  | nil =>
    obtain rfl : f = g := by simpa [fill] using h
    rfl
  | cons hole holes ih =>
    cases hole with
    | left op => simp [fill] at h
    | right op left =>
      rw [ih h, formulaSize_join, holesSize]
      omega

lemma holesSize_of_fill {f : Formula} {holes holes' : List Hole} (h : fill f holes = .inr holes') :
    holesSize holes' = formulaSize f + holesSize holes := by
  induction holes generalizing f with
  | nil => simp [fill] at h
  | cons hole holes ih =>
    cases hole with
    | left op =>
      obtain rfl : .right op f :: holes = holes' := by simpa [fill] using h
      rw [holesSize, holesSize]
      omega
    | right op left =>
      rw [ih h, formulaSize_join, holesSize]
      omega

lemma formulaSize_leaf_le_of_read {text : String} {bytes rest rest' : List UInt8} {n : Nat}
    (hkind : readInteger 4 bytes = .ok (n, rest)) (htext : readText rest = .ok (text, rest')) :
    formulaSize (.leaf text) + rest'.length ≤ bytes.length := by
  have hlt := length_lt_of_readInteger hkind
  have hle := length_writeText_le_of_read htext
  have hsize : formulaSize (.leaf text) = 1 + (writeText text).length := by
    show (writeInteger 0 ++ (writeText text ++ [])).length = _
    rw [List.length_append, List.append_nil]
    rfl
  omega

/-- A formula is written in no more bytes than it was read from, with what led to it. -/
lemma formulaSize_le_of_read {f : Formula} {holes : List Hole} {bytes rest : List UInt8}
    (h : readFormula holes bytes = .ok (f, rest)) :
    formulaSize f + rest.length ≤ holesSize holes + bytes.length := by
  -- the holes account for the bytes that were read before the reader came here
  fun_induction readFormula holes bytes with
  | case1 | case2 | case7 => simp at h
  | case3 holes bytes rest' hkind text rest'' htext g hfill =>
    simp only [Except.ok.injEq, Prod.mk.injEq] at h
    obtain ⟨rfl, rfl⟩ := h
    have hleaf := formulaSize_leaf_le_of_read hkind htext
    rw [formulaSize_of_fill hfill]
    omega
  | case4 holes bytes rest' hkind text rest'' htext holes' hfill ih =>
    have hleaf := formulaSize_leaf_le_of_read hkind htext
    have hrest := ih h
    rw [holesSize_of_fill hfill] at hrest
    omega
  | case5 holes bytes rest' hkind ih | case6 holes bytes rest' hkind ih =>
    have hlt := length_lt_of_readInteger hkind
    have hrest := ih h
    rw [holesSize] at hrest
    omega

/-! ## Payloads and blobs -/

/-- The bytes of a formula, if any. -/
def writeOptional : Option Formula → List UInt8
  | none => [0]
  | some f => 1 :: writeFormula f []

lemma length_writeOptional_le_of_read {formula? : Option Formula} {bytes rest : List UInt8}
    (h : readOptional bytes = .ok (formula?, rest)) :
    (writeOptional formula?).length ≤ bytes.length := by
  unfold readOptional at h
  split at h
  · simp at h
  · simp only [Except.ok.injEq, Prod.mk.injEq] at h
    obtain ⟨rfl, rfl⟩ := h
    simp [writeOptional]
  · rename_i bytes
    cases hread : readFormula [] bytes with
    | error e => simp [hread, Except.map] at h
    | ok read =>
      simp only [hread, Except.map, Except.ok.injEq, Prod.mk.injEq] at h
      obtain ⟨rfl, rfl⟩ := h
      have hle := formulaSize_le_of_read hread
      rw [formulaSize, holesSize] at hle
      simp only [writeOptional, List.length_cons]
      omega
  · simp at h

namespace Payload

lemma encode_eq (p : Payload) :
    p.encode = writeInteger p.leaves ++ (writeInteger p.depth ++ writeOptional p.formula?) := by
  rw [encode]
  cases p.formula? <;> rfl

/-- A payload is written in no more bytes than it was read from. -/
theorem length_encode_le_of_decode {p : Payload} {bytes : List UInt8}
    (h : decode bytes = .ok p) : p.encode.length ≤ bytes.length := by
  obtain ⟨⟨leaves, bytes'⟩, hleaves, h⟩ := bind_eq_ok_iff.mp h
  obtain ⟨⟨depth, bytes''⟩, hdepth, h⟩ := bind_eq_ok_iff.mp h
  obtain ⟨⟨formula?, rest⟩, hformula, h⟩ := bind_eq_ok_iff.mp h
  obtain rfl : Payload.mk (.ofNat leaves) (.ofNat depth) formula? = p := Except.ok.inj h
  have hleavesle := (length_writeInteger_le_of_read hleaves).2
  have hdepthle := (length_writeInteger_le_of_read hdepth).2
  have hformulale := length_writeOptional_le_of_read hformula
  simp only [encode_eq, List.length_append]
  omega

/-- A valid payload is the payload of its rule, whose conditions can all be split. -/
lemma eq_ofRule_of_validate {p : Payload} {r : Rule} (h : p.validate = .ok r) :
    p = ofRule r ∧ Condition.checkAll r.conditions = .ok () := by
  obtain ⟨hsplit, hleaves, hdepth, rfl⟩ := validate_eq_ok_iff.mp h
  refine ⟨?_, Condition.checkAll_eq_ok hsplit⟩
  rw [ofRule, ← hleaves, ← hdepth, UInt64.ofNat_toNat, UInt64.ofNat_toNat]
  rfl

end Payload

/-- What is known of a rule that came out of an archive. -/
lemma exists_payload_of_decode {r : Rule} {bytes : List UInt8} (h : decode bytes = .ok r) :
    ∃ payload, unframe bytes = .ok payload ∧ Payload.decode payload = .ok (Payload.ofRule r) ∧
      Condition.checkAll r.conditions = .ok () := by
  rw [decode] at h
  split at h
  · simp at h
  · rename_i payload hpayload
    split at h
    · simp at h
    · rename_i p hp
      obtain ⟨rfl, hconditions⟩ := Payload.eq_ofRule_of_validate h
      exact ⟨payload, hpayload, hp, hconditions⟩

/-- The length of a payload is given in four bytes. -/
lemma length_lt_of_unframe {bytes payload : List UInt8} (h : unframe bytes = .ok payload) :
    payload.length < 2 ^ 32 := by
  obtain ⟨header, rest, hfits, -⟩ := exists_fits_of_unframe h
  exact hfits.length_lt

/-- A rule that came out of an archive fits into one. -/
theorem length_payload_of_decode {r : Rule} {bytes : List UInt8} (h : decode bytes = .ok r) :
    (Payload.ofRule r).encode.length < 2 ^ 32 := by
  obtain ⟨payload, hpayload, hdecode, -⟩ := exists_payload_of_decode h
  exact (Payload.length_encode_le_of_decode hdecode).trans_lt (length_lt_of_unframe hpayload)

end Verdict.Archive
