import Verdict.Proofs.Archive.Shortest
/-
Archives, written anew.

A blob that is read need not be the one that is written of its rule: its integers may stand
there in longer forms, bytes may follow the rule in the payload and the payload in the blob,
and the header has fields that the reader passes over.  All of this is gone when the rule is
written anew (`rewrite`).  What is left is one blob for each rule, and no blob of the rule is
shorter; it holds the same rule, and is not changed by being written anew once more
(`rewrite_of_decode`).
-/
namespace Verdict.Archive

/-- The blob that is written of the rule in a blob. -/
def rewrite (bytes : List UInt8) : Except ArchiveError (List UInt8) :=
  (decode bytes).map encode

lemma rewrite_eq_ok {bytes : List UInt8} {r : Rule} (h : decode bytes = .ok r) :
    rewrite bytes = .ok (encode r) := by
  rw [rewrite, h]
  rfl

/-- A blob has room for its header and its payload. -/
lemma length_le_of_unframe {bytes payload : List UInt8} (h : unframe bytes = .ok payload) :
    headerSize + payload.length ≤ bytes.length := by
  obtain ⟨header, rest, -, rfl⟩ := exists_fits_of_unframe h
  rw [List.length_append, header.length_bytes, List.length_append]
  omega

/-- Of all blobs that hold a rule, none is shorter than the one that is written. -/
lemma length_encode_le {bytes : List UInt8} {r : Rule} (h : decode bytes = .ok r) :
    (encode r).length ≤ bytes.length := by
  obtain ⟨payload, hpayload, hdecode, -⟩ := exists_payload_of_decode h
  calc (encode r).length
      = headerSize + (Payload.ofRule r).encode.length := length_frame _
    _ ≤ headerSize + payload.length :=
        Nat.add_le_add_left (Payload.length_encode_le_of_decode hdecode) _
    _ ≤ bytes.length := length_le_of_unframe hpayload

/-- What was read once passes every check when it is read of the blob written anew. -/
lemma decode_encode_of_decode {bytes : List UInt8} {r : Rule} (h : decode bytes = .ok r) :
    decode (encode r) = .ok r := by
  obtain ⟨_, -, -, hconditions⟩ := exists_payload_of_decode h
  rw [decode_encode_eq (length_payload_of_decode h), hconditions]

/-- **A blob can be written anew.**  Wherever a blob comes from, if a rule is read of it, the
blob that is written of this rule is no longer, the same rule is read of it, and to write it
anew gives the same bytes. -/
theorem rewrite_of_decode {bytes : List UInt8} {t : Rule} (h : decode bytes = .ok t) :
    rewrite bytes = .ok (encode t) ∧ (encode t).length ≤ bytes.length ∧
      decode (encode t) = .ok t ∧ rewrite (encode t) = .ok (encode t) := by
  have hagain := decode_encode_of_decode h
  exact ⟨rewrite_eq_ok h, length_encode_le h, hagain, rewrite_eq_ok hagain⟩

/-- A blob of engine version 7 with flags, with three integers in longer forms, and with bytes
behind the rule and behind the payload. -/
theorem rewrite_of_decode_lenient :
    decode [82, 65, 83, 84, 1, 0, 7, 0, 222, 173, 190, 239, 35, 0, 0, 0, 196, 23, 231, 222, 100,
        50, 47, 26, 179, 123, 1, 175, 105, 119, 63, 188, 251, 2, 0, 2, 1, 251, 2, 0, 0, 5, 97, 32,
        61, 32, 49, 252, 0, 0, 0, 0, 253, 5, 0, 0, 0, 0, 0, 0, 0, 98, 32, 61, 32, 50, 170, 0, 1] =
      .ok (.ofFormula (.join .or (.leaf "a = 1") (.leaf "b = 2"))) ∧
    (encode (.ofFormula (.join .or (.leaf "a = 1") (.leaf "b = 2")))).length = 50 ∧
    rewrite (encode (.ofFormula (.join .or (.leaf "a = 1") (.leaf "b = 2")))) =
      .ok (encode (.ofFormula (.join .or (.leaf "a = 1") (.leaf "b = 2")))) := by
  have hdecode : decode [82, 65, 83, 84, 1, 0, 7, 0, 222, 173, 190, 239, 35, 0, 0, 0, 196, 23,
      231, 222, 100, 50, 47, 26, 179, 123, 1, 175, 105, 119, 63, 188, 251, 2, 0, 2, 1, 251, 2, 0,
      0, 5, 97, 32, 61, 32, 49, 252, 0, 0, 0, 0, 253, 5, 0, 0, 0, 0, 0, 0, 0, 98, 32, 61, 32, 50,
      170, 0, 1] = .ok (.ofFormula (.join .or (.leaf "a = 1") (.leaf "b = 2"))) := by
    decide +kernel
  exact ⟨hdecode, by decide +kernel, (rewrite_of_decode hdecode).2.2.2⟩

end Verdict.Archive
