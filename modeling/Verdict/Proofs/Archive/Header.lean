import Verdict.Archive.Blob
import Verdict.Proofs.Archive.Bytes
/-
Headers of blobs.

The header of a blob is five fields of fixed sizes and some bytes that are not read.  Any bytes
that are long enough have one in front (`exists_header`), whatever is written in it; and what
`unframe` makes of them is a matter of its fields and of the bytes behind it (`unframe_header`).
All that is known of reading blobs, good or bad, follows from this one equation: a payload is
read where a header announces it (`Header.Fits`), and nowhere else (`exists_fits_of_unframe`).
-/
namespace Verdict.Archive

/-! ## Fields -/

/-- The hash only matters by its length: a header holds half of it. -/
@[simp] lemma length_hash (bytes : List UInt8) : (Blake3.hash bytes).length = 32 := by
  simp [Blake3.hash, List.length_flatMap, Blake3.wordBytes]

@[simp] lemma length_checksum (payload : List UInt8) : (checksum payload).length = 16 := by
  rw [checksum, List.length_take, length_hash]
  rfl

/-- A field stands behind as many bytes as its position says. -/
lemma field_eq (pre post : List UInt8) {bytes mid : List UInt8} {start size : Nat}
    (h : bytes = pre ++ (mid ++ post)) (hstart : pre.length = start) (hsize : mid.length = size) :
    field bytes start size = mid := by
  rw [h, field, ← hstart, ← hsize, List.drop_left, List.take_left]

lemma length_field {bytes : List UInt8} {start size : Nat} (h : start + size ≤ bytes.length) :
    (field bytes start size).length = size := by
  rw [field, List.length_take, List.length_drop]
  omega

/-- A field stands in front of what is behind it. -/
lemma field_append_drop (bytes : List UInt8) {start size stop : Nat} (h : start + size = stop) :
    field bytes start size ++ bytes.drop stop = bytes.drop start := by
  rw [← h, ← List.drop_drop, field, List.take_append_drop]

/-! ## Headers -/

/-- The parts of a header. -/
structure Header where
  letters : List UInt8
  version : List UInt8
  /-- The version of the engine and the bytes for later use, which are not read. -/
  unread : List UInt8
  /-- The length of the payload. -/
  size : List UInt8
  sum : List UInt8
  length_letters : letters.length = 4
  length_version : version.length = 2
  length_unread : unread.length = 6
  length_size : size.length = 4
  length_sum : sum.length = 16

namespace Header

/-- The bytes of a header. -/
def bytes (h : Header) : List UInt8 :=
  h.letters ++ (h.version ++ (h.unread ++ (h.size ++ h.sum)))

@[simp] lemma length_bytes (h : Header) : h.bytes.length = headerSize := by
  simp only [bytes, List.length_append, h.length_letters, h.length_version, h.length_unread,
    h.length_size, h.length_sum]
  rfl

/-- The header that is written in front of a payload. -/
def ofPayload (payload : List UInt8) : Header where
  letters := magic
  version := littleEndian 2 formatVersion
  unread := littleEndian 2 engineVersion ++ littleEndian 4 0
  size := littleEndian 4 payload.length
  sum := checksum payload
  length_letters := rfl
  length_version := rfl
  length_unread := rfl
  length_size := length_littleEndian 4 _
  length_sum := length_checksum payload

end Header

lemma frame_eq (payload : List UInt8) :
    frame payload = (Header.ofPayload payload).bytes ++ payload := by
  simp only [frame, Header.bytes, Header.ofPayload, List.append_assoc]

lemma length_frame (payload : List UInt8) :
    (frame payload).length = headerSize + payload.length := by
  rw [frame_eq, List.length_append, Header.length_bytes]

/-- Any bytes start with a header, if there are enough of them. -/
lemma exists_header {bytes : List UInt8} (h : headerSize ≤ bytes.length) :
    ∃ (header : Header) (rest : List UInt8), bytes = header.bytes ++ rest := by
  rw [headerSize] at h
  refine ⟨⟨field bytes 0 4, field bytes 4 2, field bytes 6 6, field bytes 12 4, field bytes 16 16,
    length_field (by omega), length_field (by omega), length_field (by omega),
    length_field (by omega), length_field (by omega)⟩, bytes.drop 32, ?_⟩
  simp only [Header.bytes, List.append_assoc, field_append_drop bytes (rfl : 16 + 16 = 32),
    field_append_drop bytes (rfl : 12 + 4 = 16), field_append_drop bytes (rfl : 6 + 6 = 12),
    field_append_drop bytes (rfl : 4 + 2 = 6), field_append_drop bytes (rfl : 0 + 4 = 4),
    List.drop_zero]

/-! ## What is read behind a header -/

lemma unframe_of_short {bytes : List UInt8} (h : bytes.length < headerSize) :
    unframe bytes = .error (.lengthMismatch headerSize bytes.length) :=
  if_pos h

/-- What becomes of a blob is a matter of the fields of its header and the bytes behind it. -/
theorem unframe_header (h : Header) (rest : List UInt8) :
    unframe (h.bytes ++ rest) =
      if h.letters ≠ magic then .error .badMagic
      else if ofLittleEndian h.version ≠ formatVersion then
        .error (.incompatibleVersion (ofLittleEndian h.version))
      else if rest.length < ofLittleEndian h.size then
        .error (.lengthMismatch (ofLittleEndian h.size) rest.length)
      else if checksum (rest.take (ofLittleEndian h.size)) ≠ h.sum then .error .checksumMismatch
      else .ok (rest.take (ofLittleEndian h.size)) := by
  have hletters : field (h.bytes ++ rest) 0 4 = h.letters :=
    field_eq [] _ (by simp only [Header.bytes, List.append_assoc]; rfl) rfl h.length_letters
  have hversion : field (h.bytes ++ rest) 4 2 = h.version :=
    field_eq h.letters _ (by simp only [Header.bytes, List.append_assoc]; rfl) h.length_letters
      h.length_version
  have hsize : field (h.bytes ++ rest) 12 4 = h.size :=
    field_eq (h.letters ++ (h.version ++ h.unread)) _
      (by simp only [Header.bytes, List.append_assoc]; rfl)
      (by simp [h.length_letters, h.length_version, h.length_unread]) h.length_size
  have hsum : field (h.bytes ++ rest) 16 16 = h.sum :=
    field_eq (h.letters ++ (h.version ++ (h.unread ++ h.size))) _
      (by simp only [Header.bytes, List.append_assoc]; rfl)
      (by simp [h.length_letters, h.length_version, h.length_unread, h.length_size]) h.length_sum
  have hpayload (n : Nat) : field (h.bytes ++ rest) headerSize n = rest.take n := by
    rw [field, ← h.length_bytes, List.drop_left]
  have hlength : (h.bytes ++ rest).length - headerSize = rest.length := by
    rw [List.length_append, h.length_bytes, Nat.add_sub_cancel_left]
  have hlong : ¬ (h.bytes ++ rest).length < headerSize := by
    rw [List.length_append, h.length_bytes]
    omega
  simp only [unframe, hletters, hversion, hsize, hsum, hpayload, hlength, if_neg hlong]

/-! ## Headers that fit their payload -/

namespace Header

/-- The header announces `payload`. -/
structure Fits (h : Header) (payload : List UInt8) : Prop where
  letters_eq : h.letters = magic
  version_eq : ofLittleEndian h.version = formatVersion
  size_eq : ofLittleEndian h.size = payload.length
  sum_eq : h.sum = checksum payload

lemma fits_ofPayload {payload : List UInt8} (h : payload.length < 2 ^ 32) :
    (ofPayload payload).Fits payload where
  letters_eq := rfl
  version_eq := ofLittleEndian_littleEndian (by decide)
  size_eq := ofLittleEndian_littleEndian h
  sum_eq := rfl

namespace Fits

variable {h : Header} {payload rest : List UInt8} (hfits : h.Fits payload)
include hfits

/-- The length of a payload is given in four bytes. -/
lemma length_lt : payload.length < 2 ^ 32 := by
  have hlt := ofLittleEndian_lt h.size
  rwa [hfits.size_eq, h.length_size] at hlt

lemma unframe_eq :
    unframe (h.bytes ++ rest) =
      if rest.length < payload.length then .error (.lengthMismatch payload.length rest.length)
      else if checksum (rest.take payload.length) ≠ checksum payload then .error .checksumMismatch
      else .ok (rest.take payload.length) := by
  rw [unframe_header, if_neg (not_not.mpr hfits.letters_eq), if_neg (not_not.mpr hfits.version_eq),
    hfits.size_eq, hfits.sum_eq]

lemma unframe_payload : unframe (h.bytes ++ payload) = .ok payload := by
  rw [hfits.unframe_eq, List.take_length, if_neg (Nat.lt_irrefl _), if_neg (not_not.mpr rfl)]

end Fits

end Header

/-- A payload that is read stands behind a header that announces it. -/
lemma exists_fits_of_unframe {bytes payload : List UInt8} (h : unframe bytes = .ok payload) :
    ∃ (header : Header) (rest : List UInt8),
      header.Fits payload ∧ bytes = header.bytes ++ (payload ++ rest) := by
  by_cases hshort : bytes.length < headerSize
  · rw [unframe_of_short hshort] at h
    cases h
  · obtain ⟨header, rest, rfl⟩ := exists_header (Nat.le_of_not_lt hshort)
    rw [unframe_header] at h
    split_ifs at h with hletters hversion hlength hsum
    obtain rfl := Except.ok.inj h
    refine ⟨header, rest.drop (ofLittleEndian header.size),
      ⟨not_not.mp hletters, not_not.mp hversion, ?_, (not_not.mp hsum).symm⟩, ?_⟩
    · rw [List.length_take_of_le (Nat.le_of_not_lt hlength)]
    · rw [List.take_append_drop]

end Verdict.Archive
