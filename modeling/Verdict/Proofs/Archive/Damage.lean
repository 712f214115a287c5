import Verdict.Proofs.Archive.Blob
/-
Damaged and forged archives.

A blob that is cut short, or whose header or payload is changed, is refused, and the error says
what is wrong with it (`decode_damaged`); only the length of a blob can be wrong for want of
bytes at its end, so that other outcomes do not depend on what follows.

A header that fits a payload is no proof that the payload is sound: anyone can write one.  The
numbers in a payload are therefore compared with the rule in it, after the conditions have been
checked, and a payload that declares anything else than the truth is refused
(`decode_forged`).
-/
namespace Verdict.Archive

/-! ## Blobs that are cut short or changed -/

namespace Header

variable {h : Header} {payload rest : List UInt8}

lemma Fits.unframe_of_length_lt (hfits : h.Fits payload) (hlt : rest.length < payload.length) :
    unframe (h.bytes ++ rest) = .error (.lengthMismatch payload.length rest.length) := by
  rw [hfits.unframe_eq, if_pos hlt]

lemma Fits.unframe_of_checksum_ne (hfits : h.Fits payload) (hlength : rest.length = payload.length)
    (hne : checksum rest ≠ checksum payload) :
    unframe (h.bytes ++ rest) = .error .checksumMismatch := by
  rw [hfits.unframe_eq, if_neg (by omega), ← hlength, List.take_length, if_pos hne]

end Header

lemma decode_of_unframe_eq_error {bytes : List UInt8} {error : ArchiveError}
    (h : unframe bytes = .error error) : decode bytes = .error error := by
  rw [decode, h]

/-- A part of a frame lacks some of the header, or some of the payload. -/
lemma unframe_take_frame {payload : List UInt8} (hsize : payload.length < 2 ^ 32) {c : Nat}
    (hc : c < (frame payload).length) :
    unframe ((frame payload).take c) =
      .error (if c < headerSize then .lengthMismatch headerSize c
        else .lengthMismatch payload.length (c - headerSize)) := by
  have hlength : ((frame payload).take c).length = c := List.length_take_of_le hc.le
  rw [length_frame] at hc
  by_cases hshort : c < headerSize
  · rw [if_pos hshort, unframe_of_short (by rwa [hlength]), hlength]
  · have htake : (frame payload).take c =
        (Header.ofPayload payload).bytes ++ payload.take (c - headerSize) := by
      rw [frame_eq, List.take_append, Header.length_bytes, List.take_of_length_le]
      rw [Header.length_bytes]
      omega
    have hpart : (payload.take (c - headerSize)).length = c - headerSize :=
      List.length_take_of_le (by omega)
    rw [if_neg hshort, htake, (Header.fits_ofPayload hsize).unframe_of_length_lt (by omega), hpart]

/-- The first four bytes of a blob are its letters. -/
lemma unframe_of_letters_ne {letters rest : List UInt8} (hlength : letters.length = magic.length)
    (hne : letters ≠ magic) (hlong : headerSize ≤ (letters ++ rest).length) :
    unframe (letters ++ rest) = .error .badMagic := by
  obtain ⟨h, rest', hbytes⟩ := exists_header hlong
  have hletters : letters = h.letters := by
    rw [Header.bytes, List.append_assoc] at hbytes
    exact List.append_inj_left hbytes (hlength.trans h.length_letters.symm)
  rw [hbytes, unframe_header, if_pos (hletters ▸ hne)]

/-- Two bytes behind the letters are the version. -/
lemma unframe_of_version_ne {version rest : List UInt8} (hlength : version.length = 2)
    (hne : version ≠ littleEndian 2 formatVersion)
    (hlong : headerSize ≤ (magic ++ (version ++ rest)).length) :
    unframe (magic ++ (version ++ rest)) =
      .error (.incompatibleVersion (ofLittleEndian version)) := by
  obtain ⟨h, rest', hbytes⟩ := exists_header hlong
  rw [hbytes]
  rw [Header.bytes, List.append_assoc, List.append_assoc] at hbytes
  obtain ⟨hletters, hbytes⟩ := List.append_inj hbytes h.length_letters.symm
  obtain ⟨rfl, -⟩ := List.append_inj hbytes (hlength.trans h.length_version.symm)
  have hversion : ofLittleEndian h.version ≠ formatVersion := by
    intro heq
    refine hne ?_
    rw [← littleEndian_ofLittleEndian h.version, heq, h.length_version]
  rw [unframe_header, if_neg (not_not.mpr hletters.symm), if_pos hversion]

/-- Bytes at the end of a blob only matter where some are missing. -/
lemma unframe_append {bytes : List UInt8}
    (h : ∀ expected actual, unframe bytes ≠ .error (.lengthMismatch expected actual))
    (more : List UInt8) : unframe (bytes ++ more) = unframe bytes := by
  by_cases hshort : bytes.length < headerSize
  · exact absurd (unframe_of_short hshort) (h _ _)
  · obtain ⟨header, rest, rfl⟩ := exists_header (Nat.le_of_not_lt hshort)
    rw [List.append_assoc]
    by_cases hlength : ofLittleEndian header.size ≤ rest.length
    · have hlong : ¬ rest.length < ofLittleEndian header.size := Nat.not_lt.mpr hlength
      have hlong' : ¬ (rest ++ more).length < ofLittleEndian header.size := by
        rw [List.length_append]
        omega
      rw [unframe_header, unframe_header, if_neg hlong, if_neg hlong',
        List.take_append_of_le_length hlength]
    · -- what is wrong has been found before the length is looked at
      by_cases hletters : header.letters ≠ magic
      · rw [unframe_header, unframe_header, if_pos hletters, if_pos hletters]
      · by_cases hversion : ofLittleEndian header.version ≠ formatVersion
        · rw [unframe_header, unframe_header, if_neg hletters, if_neg hletters, if_pos hversion,
            if_pos hversion]
        · refine absurd ?_ (h (ofLittleEndian header.size) rest.length)
          rw [unframe_header, if_neg hletters, if_neg hversion, if_pos (Nat.lt_of_not_le hlength)]

/-- **Damage is caught.**  Let the payload of a rule be shorter than 4 GiB.  A proper part of its
archive lacks bytes of the header or of the payload, and the error says how many there are and
how many there should be.  Another payload of the same length has another checksum, unless the
first half of its hash is the same by chance.  Other letters in front are no blob, and another
version is named, whatever else is in the blob.  And whatever bytes are read, unless some are
missing the outcome does not depend on what follows. -/
theorem decode_damaged {r : Rule} (hsize : (Payload.ofRule r).encode.length < 2 ^ 32) :
    (∀ c < (encode r).length, decode ((encode r).take c) =
      .error (if c < headerSize then .lengthMismatch headerSize c
        else .lengthMismatch (Payload.ofRule r).encode.length (c - headerSize))) ∧
    (∀ payload, payload.length = (Payload.ofRule r).encode.length →
      (Blake3.hash payload).take 16 ≠ (Blake3.hash (Payload.ofRule r).encode).take 16 →
      decode ((encode r).take headerSize ++ payload) = .error .checksumMismatch) ∧
    (∀ letters rest, letters.length = magic.length → letters ≠ magic →
      headerSize ≤ (letters ++ rest).length → decode (letters ++ rest) = .error .badMagic) ∧
    (∀ low high rest, [low, high] ≠ littleEndian 2 formatVersion →
      headerSize ≤ (magic ++ low :: high :: rest).length →
      decode (magic ++ low :: high :: rest) =
        .error (.incompatibleVersion (low.toNat + 256 * high.toNat))) ∧
    ∀ bytes more, (∀ expected actual, decode bytes ≠ .error (.lengthMismatch expected actual)) →
      decode (bytes ++ more) = decode bytes := by
  refine ⟨fun c hc => ?_, fun payload hlength hne => ?_, fun letters rest hlength hne hlong => ?_,
    fun low high rest hne hlong => ?_, fun bytes more h => ?_⟩
  · exact decode_of_unframe_eq_error (unframe_take_frame hsize hc)
  · have hheader : (encode r).take headerSize =
        (Header.ofPayload (Payload.ofRule r).encode).bytes := by
      rw [encode, frame_eq, List.take_left' (Header.length_bytes _)]
    rw [hheader]
    exact decode_of_unframe_eq_error
      ((Header.fits_ofPayload hsize).unframe_of_checksum_ne hlength hne)
  · exact decode_of_unframe_eq_error (unframe_of_letters_ne hlength hne hlong)
  · have hversion : ofLittleEndian [low, high] = low.toNat + 256 * high.toNat := by
      simp [ofLittleEndian]
    rw [← hversion]
    exact decode_of_unframe_eq_error (unframe_of_version_ne rfl hne hlong)
  · rw [decode, decode, unframe_append]
    intro expected actual hunframe
    exact h expected actual (decode_of_unframe_eq_error hunframe)

/-- Parts of an archive that end within the header and behind it, a changed byte of its payload,
another letter and another version, and bytes that follow a blob of the version 257. -/
theorem decode_damaged_anywhere :
    let r := Rule.ofFormula (.leaf "a = 1")
    (Payload.ofRule r).encode = [1, 1, 1, 0, 5, 97, 32, 61, 32, 49] ∧
    decode ((encode r).take 31) = .error (.lengthMismatch 32 31) ∧
    decode ((encode r).take 32) = .error (.lengthMismatch 10 0) ∧
    decode ((encode r).take 32 ++ [1, 1, 1, 0, 5, 97, 32, 61, 32, 50]) = .error .checksumMismatch ∧
    decode ([82, 65, 83, 85] ++ List.replicate 28 0) = .error .badMagic ∧
    decode (magic ++ 1 :: 1 :: List.replicate 26 0) = .error (.incompatibleVersion 257) ∧
    decode (magic ++ 1 :: 1 :: List.replicate 26 0 ++ [7]) =
      decode (magic ++ 1 :: 1 :: List.replicate 26 0) := by
  intro r
  obtain ⟨hparts, hpayloads, hletters, hversions, hmore⟩ :=
    decode_damaged (r := r) (by decide)
  have hversion := hversions 1 1 (List.replicate 26 0) (by decide) (by decide)
  refine ⟨by decide, hparts 31 (by decide +kernel), hparts 32 (by decide +kernel),
    hpayloads _ (by decide) (by decide +kernel),
    hletters [82, 65, 83, 85] _ (by decide) (by decide) (by decide), hversion, hmore _ [7] ?_⟩
  intro expected actual h
  rw [hversion] at h
  cases h

/-! ## Payloads that declare something else -/

lemma ArchiveError.message_leavesMismatch (declared actual : Nat) :
    (leavesMismatch declared actual).message =
      "validation failed: " ++ ("metadata declares " ++ toString declared
        ++ " conditions, tree holds " ++ toString actual) := by
  have hsplit : "validation failed: metadata declares " =
      "validation failed: " ++ "metadata declares " := by decide
  change "validation failed: metadata declares " ++ _ ++ _ ++ _ = _
  rw [hsplit]
  simp only [String.append_assoc]

lemma ArchiveError.message_depthMismatch (declared actual : Nat) :
    (depthMismatch declared actual).message =
      "validation failed: " ++ ("metadata declares depth " ++ toString declared
        ++ ", tree has depth " ++ toString actual) := by
  have hsplit : "validation failed: metadata declares depth " =
      "validation failed: " ++ "metadata declares depth " := by decide
  change "validation failed: metadata declares depth " ++ _ ++ _ ++ _ = _
  rw [hsplit]
  simp only [String.append_assoc]

/-- Whatever is wrong with a payload, the error says that it is not valid. -/
lemma Payload.message_of_validate_eq_error {p : Payload} {error : ArchiveError}
    (h : p.validate = .error error) :
    ∃ what, error.message = "validation failed: " ++ what := by
  cases hcheck : Condition.checkAll p.rule.conditions with
  | error error' =>
    rw [validate_of_malformed hcheck] at h
    exact ⟨error'.message, by rw [← Except.error.inj h]; rfl⟩
  | ok _ =>
    rw [validate_of_split (Condition.split_of_checkAll hcheck)] at h
    split_ifs at h
    · exact ⟨_, by rw [← Except.error.inj h, ArchiveError.message_leavesMismatch]⟩
    · exact ⟨_, by rw [← Except.error.inj h, ArchiveError.message_depthMismatch]⟩

/-- **Forged numbers are found out.**  Let a header fit a payload, whatever formula is in it and
whatever numbers are declared of it.  The rule is read exactly if all of its conditions can be
split and its conditions and levels are as many as declared.  Else validation fails: with the
error of the first condition that cannot be split, whatever is declared; then with the number of
conditions, whatever is declared of the levels; and at last with the number of levels. -/
theorem decode_forged {h : Header} {p : Payload} (hfits : h.Fits p.encode) :
    (∀ t, decode (h.bytes ++ p.encode) = .ok t ↔
      (∀ text ∈ p.rule.conditions, ∃ parts, Condition.split text = .ok parts) ∧
      p.leaves.toNat = p.rule.conditions.length ∧ p.depth.toNat = p.rule.depth ∧ t = p.rule) ∧
    (∀ error, decode (h.bytes ++ p.encode) = .error error →
      ∃ what, error.message = "validation failed: " ++ what) ∧
    (∀ before text after error, p.rule.conditions = before ++ text :: after →
      (∀ earlier ∈ before, ∃ parts, Condition.split earlier = .ok parts) →
      Condition.split text = .error error →
      decode (h.bytes ++ p.encode) = .error (.malformedCondition error)) ∧
    ((∀ text ∈ p.rule.conditions, ∃ parts, Condition.split text = .ok parts) →
      (p.leaves.toNat ≠ p.rule.conditions.length →
        decode (h.bytes ++ p.encode) =
          .error (.leavesMismatch p.leaves.toNat p.rule.conditions.length)) ∧
      (p.leaves.toNat = p.rule.conditions.length → p.depth.toNat ≠ p.rule.depth →
        decode (h.bytes ++ p.encode) = .error (.depthMismatch p.depth.toNat p.rule.depth))) := by
  rw [decode_of_fits hfits]
  refine ⟨fun t => Payload.validate_eq_ok_iff, fun error => Payload.message_of_validate_eq_error,
    fun before text after error hconditions hbefore htext => ?_,
    fun hsplit => ⟨fun hleaves => ?_, fun hleaves hdepth => ?_⟩⟩
  · refine Payload.validate_of_malformed ?_
    rw [hconditions, Condition.checkAll_eq_error hbefore htext]
  · rw [Payload.validate_of_split hsplit, if_pos hleaves]
  · rw [Payload.validate_of_split hsplit, if_neg (not_not.mpr hleaves), if_pos hdepth]

/-- A formula of three conditions and three levels behind the right numbers, a wrong number of
levels and two wrong numbers, no formula behind a number of levels, and a formula of which the
second text is no condition. -/
theorem decode_forged_numbers :
    let f := Formula.join .or (.leaf "a > 1") (.join .and (.leaf "b < 2") (.leaf "c = 3"))
    let framed (p : Payload) := (Header.ofPayload p.encode).bytes ++ p.encode
    decode (framed ⟨3, 3, f⟩) = .ok (.ofFormula f) ∧
    decode (framed ⟨3, 2, f⟩) = .error (.depthMismatch 2 3) ∧
    decode (framed ⟨5, 2, f⟩) = .error (.leavesMismatch 5 3) ∧
    decode (framed ⟨0, 1, none⟩) = .error (.depthMismatch 1 0) ∧
    decode (framed ⟨5, 2, some (.join .and (.leaf "a > 1") (.leaf "y >> 2"))⟩) =
      .error (.malformedCondition (.unsupportedComparator "y >> 2" ">>")) := by
  intro f framed
  have hsplit : ∀ text ∈ f.conditions, ∃ parts, Condition.split text = .ok parts := by
    intro text htext
    simp only [f, Formula.conditions, List.cons_append, List.nil_append, List.mem_cons,
      List.not_mem_nil, or_false] at htext
    rcases htext with rfl | rfl | rfl
    · exact ⟨⟨"a", .greater, "1"⟩, by decide⟩
    · exact ⟨⟨"b", .less, "2"⟩, by decide⟩
    · exact ⟨⟨"c", .equal, "3"⟩, by decide⟩
  refine ⟨?_, ?_, ?_, ?_, ?_⟩
  · exact ((decode_forged (p := ⟨3, 3, f⟩) (Header.fits_ofPayload (by decide))).1 _).mpr
      ⟨hsplit, rfl, rfl, rfl⟩
  · exact ((decode_forged (p := ⟨3, 2, f⟩) (Header.fits_ofPayload (by decide))).2.2.2
      hsplit).2 rfl (by decide)
  · exact ((decode_forged (p := ⟨5, 2, f⟩) (Header.fits_ofPayload (by decide))).2.2.2
      hsplit).1 (by decide)
  · exact ((decode_forged (p := ⟨0, 1, none⟩) (Header.fits_ofPayload (by decide))).2.2.2
      (List.forall_mem_nil _)).2 rfl (by decide)
  · refine (decode_forged (Header.fits_ofPayload (by decide))).2.2.1 ["a > 1"] "y >> 2" [] _ rfl
      ?_ (by decide)
    intro text htext
    obtain rfl := List.mem_singleton.mp htext
    exact ⟨⟨"a", .greater, "1"⟩, by decide⟩

end Verdict.Archive
