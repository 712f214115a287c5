import Mathlib.Data.List.Basic
import Verdict.Json.Entry.Writer
import Verdict.Json.Token
/-
Written strings, read back.

A string is written one character after the other, and its reader takes it apart where the
writer has put it together: what is written of a character is one piece, which stands for that
character again (`exists_piece`).  So any text survives, whatever is escaped in it, and where
a string is written the scanner finds one token (`scan_writeString`).

The scanner only carries along the tokens that it has found already; they are `done` in the
statements below.
-/
namespace Verdict.Json.Token

/-! ## Characters -/

lemma hexToNat?_digitChar {n : Nat} (h : n < 0x20) :
    hexToNat? ['0', '0', Nat.digitChar (n / 16), Nat.digitChar (n % 16)] = some n := by
  revert n
  decide

lemma readPieces?_unit {a b c d : Char} {n : Nat} (h : hexToNat? [a, b, c, d] = some n)
    (done : List Piece) (cs : List Char) :
    readPieces? done ('\\' :: 'u' :: a :: b :: c :: d :: cs) = readPieces? (.unit n :: done) cs := by
  rw [readPieces?, h]

/-- A code unit below the halves of characters is a character. -/
lemma joinPieces?_unit {n : Nat} (h : n < 0xD800) (done : List Char) (pieces : List Piece) :
    joinPieces? done (.unit n :: pieces) = joinPieces? (.ofNat n :: done) pieces := by
  rw [joinPieces?.eq_def]
  simp only [h, decide_true, Bool.true_or, if_true]

/-- What is written of a character is read as one piece, which stands for the character. -/
lemma exists_piece (c : Char) :
    ∃ piece, (∀ done cs, readPieces? done (escape c ++ cs) = readPieces? (piece :: done) cs) ∧
      ∀ done pieces, joinPieces? done (piece :: pieces) = joinPieces? (c :: done) pieces := by
  unfold escape
  split
  -- the last case is a character without an escape of its own
  case h_8 hquote hbackslash _ _ _ _ _ =>
    by_cases hcontrol : c.toNat < 0x20
    · refine ⟨.unit c.toNat, fun done cs => ?_, fun done pieces => ?_⟩
      · rw [if_pos hcontrol]
        exact readPieces?_unit (hexToNat?_digitChar hcontrol) done cs
      · rw [joinPieces?_unit (by omega), Char.ofNat_toNat]
    · refine ⟨.char c, fun done cs => ?_, fun _ _ => rfl⟩
      rw [if_neg hcontrol, List.singleton_append, readPieces?, if_neg hcontrol]
      · exact hquote
      · exact fun _ _ _ _ _ h => absurd h hbackslash
      · exact fun _ _ h => absurd h hbackslash
  all_goals exact ⟨.char _, fun _ _ => rfl, fun _ _ => rfl⟩

/-! ## Strings -/

/-- What is written of a text is read as pieces that stand for the text. -/
lemma exists_pieces (cs : List Char) :
    ∃ pieces, (∀ done rest, readPieces? done (cs.flatMap escape ++ '"' :: rest) =
        some (done.reverse ++ pieces, rest)) ∧
      ∀ done, joinPieces? done pieces = some (.ofList (done.reverse ++ cs)) := by
  induction cs with
  | nil =>
    refine ⟨[], fun done rest => ?_, fun done => ?_⟩
    · rw [List.flatMap_nil, List.nil_append, readPieces?, List.append_nil]
    · rw [joinPieces?, List.append_nil]
  | cons c cs ih =>
    obtain ⟨piece, hread, hjoin⟩ := exists_piece c
    obtain ⟨pieces, hreads, hjoins⟩ := ih
    refine ⟨piece :: pieces, fun done rest => ?_, fun done => ?_⟩
    · rw [List.flatMap_cons, List.append_assoc, hread, hreads, List.reverse_cons,
        List.append_assoc, List.singleton_append]
    · rw [hjoin, hjoins, List.reverse_cons, List.append_assoc, List.singleton_append]

lemma readString?_escape (s : String) (rest : List Char) :
    readString? (s.toList.flatMap escape ++ '"' :: rest) = some (string (some s), rest) := by
  obtain ⟨pieces, hread, hjoin⟩ := exists_pieces s.toList
  have htext : joinPieces? [] pieces = some s := by
    rw [hjoin, List.reverse_nil, List.nil_append, String.ofList_toList]
  rw [readString?, hread, Option.map_some, List.reverse_nil, List.nil_append]
  simp only [htext]

/-! ## Tokens -/

lemma scan_of_first {c : Char} {cs rest : List Char} {token : Token} (hblank : isBlank c = false)
    (hfirst : first? c cs = some (token, rest)) (done : List Token) :
    scan done (c :: cs) = scan (token :: done) rest := by
  rw [scan, if_neg (by simp [hblank])]
  split
  · rename_i token' rest' h
    rw [hfirst, Option.some.injEq, Prod.mk.injEq] at h
    rw [h.1, h.2]
  · rename_i h
    rw [hfirst] at h
    cases h

/-- A written string is one token, whatever its text is. -/
theorem scan_writeString (done : List Token) (s : String) (rest : List Char) :
    scan done (writeString s rest) = scan (string (some s) :: done) rest :=
  scan_of_first (c := '"') rfl (readString?_escape s rest) done

lemma scan_writeName (done : List Token) (name : String) (rest : List Char) :
    scan done (writeName name rest) = scan (colon :: string (some name) :: done) rest := by
  rw [writeName, scan_writeString]
  exact scan_of_first rfl rfl _

end Verdict.Json.Token
