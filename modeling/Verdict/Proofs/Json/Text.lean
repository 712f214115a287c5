import Verdict.Proofs.Json.Document
import Verdict.Proofs.Json.Token
import Verdict.Proofs.Number.Numeral
import Verdict.Proofs.Text
/-
Documents and their texts.

A document has many texts: blanks may stand between any two tokens, a string may be written with
escapes and a number in several ways.  What a text of a document is follows the grammar of JSON
(`Document.IsText`), with the tokens of the document, the lexemes of a token and gaps of blanks
between the lexemes.

The reader knows no other texts: the texts of a document are those in which the reader finds it
(`Document.isText_iff`).
-/
namespace Verdict.Json

namespace Token

open Decimal (Digits NoDigit Fraction Sign noDigit_append noDigit_of_fraction spanDigits_append
  spanDigits_split spanSign_append exists_sign)

/-- Nothing but blanks. -/
def Gap (cs : List Char) : Prop := ∀ c ∈ cs, isBlank c = true

/-- The exponent of a number, and how it is written. -/
inductive Exponent : Option Int → List Char → Prop
  | none : Exponent none []
  | digits {mark : Char} {negative : Bool} {sign digits : List Char}
    (hmark : mark = 'e' ∨ mark = 'E') (hsign : Sign negative sign) (hdigits : Digits digits) :
    Exponent (some (if negative then -(Decimal.digitsToNat digits : Int)
      else Decimal.digitsToNat digits)) (mark :: (sign ++ digits))

/-- A number, and how it is written. -/
inductive Numeral : Number → List Char → Prop
  | mk {negative : Bool} {whole digits fraction exponent : List Char} {exponent? : Option Int}
    (hwhole : Digits whole) (hzero : whole.head? = some '0' → whole = ['0'])
    (hfraction : Fraction digits fraction) (hexponent : Exponent exponent? exponent) :
    Numeral (.ofDigits negative whole digits exponent?)
      ((if negative then ['-'] else []) ++ (whole ++ (fraction ++ exponent)))

/-- The parts of a string, and how they are written. -/
inductive Pieces : List Piece → List Char → Prop
  | nil : Pieces [] []
  | char {c : Char} {pieces : List Piece} {cs : List Char} (hcontrol : 0x20 ≤ c.toNat)
    (hquote : c ≠ '"') (hbackslash : c ≠ '\\') (h : Pieces pieces cs) :
    Pieces (.char c :: pieces) (c :: cs)
  | escape {letter c : Char} {pieces : List Piece} {cs : List Char}
    (hletter : escaped? letter = some c) (h : Pieces pieces cs) :
    Pieces (.char c :: pieces) ('\\' :: letter :: cs)
  | unit {a b c d : Char} {n : Nat} {pieces : List Piece} {cs : List Char}
    (hdigits : hexToNat? [a, b, c, d] = some n) (h : Pieces pieces cs) :
    Pieces (.unit n :: pieces) ('\\' :: 'u' :: a :: b :: c :: d :: cs)

/-- A token, and how it is written. -/
inductive Lexeme : Token → List Char → Prop
  | beginArray : Lexeme beginArray ['[']
  | endArray : Lexeme endArray [']']
  | beginObject : Lexeme beginObject ['{']
  | endObject : Lexeme endObject ['}']
  | colon : Lexeme colon [':']
  | comma : Lexeme comma [',']
  | nullWord : Lexeme null "null".toList
  | trueWord : Lexeme (bool true) "true".toList
  | falseWord : Lexeme (bool false) "false".toList
  | number {n : Number} {cs : List Char} (h : Numeral n cs) : Lexeme (number n) cs
  | string {pieces : List Piece} {cs : List Char} (h : Pieces pieces cs) :
    Lexeme (string (joinPieces? [] pieces)) ('"' :: (cs ++ ['"']))

/-- Tokens, and how they are written: with gaps around them, and no digit behind a number. -/
inductive Spelled : List Token → List Char → Prop
  | nil {gap : List Char} (hgap : Gap gap) : Spelled [] gap
  | cons {token : Token} {tokens : List Token} {gap lexeme cs : List Char} (hgap : Gap gap)
    (hlexeme : Lexeme token lexeme) (hdigit : ∀ n, token = .number n → NoDigit cs)
    (h : Spelled tokens cs) : Spelled (token :: tokens) (gap ++ (lexeme ++ cs))

/-! ## Numbers -/

lemma noDigit_of_exponent {exponent? : Option Int} {cs : List Char} (h : Exponent exponent? cs) :
    NoDigit cs := by
  intro c hc
  cases h with
  | none => cases hc
  | digits hmark => cases hc; rcases hmark with rfl | rfl <;> decide

lemma readWhole?_append {whole rest : List Char} (hwhole : Digits whole)
    (hzero : whole.head? = some '0' → whole = ['0']) (hrest : NoDigit rest) :
    readWhole? (whole ++ rest) = some (whole, rest) := by
  have hlength : whole.head? = some '0' → whole.length = 1 := fun h => by rw [hzero h]; rfl
  have hwhole' : whole.isEmpty = false := by simpa using hwhole.1
  simp only [readWhole?, spanDigits_append hwhole hrest, hwhole', Bool.false_or]
  rw [if_neg]
  simpa using hlength

lemma eq_append_of_readWhole? {cs whole rest : List Char}
    (h : readWhole? cs = some (whole, rest)) :
    cs = whole ++ rest ∧ Digits whole ∧ (whole.head? = some '0' → whole = ['0']) ∧
      NoDigit rest := by
  simp only [readWhole?, Option.ite_none_left_eq_some, Option.some.injEq, Bool.or_eq_true,
    not_or, Bool.and_eq_true, not_and] at h
  obtain ⟨⟨hne, hzero⟩, h⟩ := h
  obtain ⟨rfl, rfl⟩ := Prod.mk.inj h
  obtain ⟨hcs, hdigits, hrest⟩ := spanDigits_split cs
  refine ⟨hcs, ⟨by simpa using hne, hdigits⟩, ?_, hrest⟩
  intro hhead
  have hlength : (Decimal.spanDigits cs).1.length = 1 := by simpa [hhead] using hzero
  obtain ⟨c, hc⟩ := List.length_eq_one_iff.mp hlength
  rw [hc] at hhead ⊢
  simpa using hhead

lemma readFraction?_append {digits fraction rest : List Char} (h : Fraction digits fraction)
    (hrest : NoDigit rest) (hpoint : rest.head? ≠ some '.') :
    readFraction? (fraction ++ rest) = some (digits, rest) := by
  cases h with
  | none =>
    rw [List.nil_append, readFraction?.eq_def]
    split
    · exact absurd rfl hpoint
    · rfl
  | digits h =>
    have hempty : digits.isEmpty = false := by simpa using h.1
    simp only [List.cons_append, readFraction?, spanDigits_append h hrest, hempty,
      Bool.false_eq_true, if_false]

lemma exists_fraction_of_readFraction? {cs digits rest : List Char} (hcs : NoDigit cs)
    (h : readFraction? cs = some (digits, rest)) :
    ∃ fraction, cs = fraction ++ rest ∧ Fraction digits fraction ∧ NoDigit rest := by
  rw [readFraction?.eq_def] at h
  split at h
  · rename_i cs
    simp only [Option.ite_none_left_eq_some, Option.some.injEq] at h
    obtain ⟨hne, h⟩ := h
    obtain ⟨rfl, rfl⟩ := Prod.mk.inj h
    obtain ⟨hcs, hdigits, hrest⟩ := spanDigits_split cs
    refine ⟨_, ?_, .digits ⟨by simpa using hne, hdigits⟩, hrest⟩
    rw [List.cons_append, ← hcs]
  · obtain ⟨rfl, rfl⟩ : [] = digits ∧ cs = rest := by simpa using h
    exact ⟨[], rfl, .none, hcs⟩

lemma readExponent?_append {exponent? : Option Int} {exponent rest : List Char}
    (h : Exponent exponent? exponent) (hrest : NoDigit rest)
    (hmark : rest.head? ≠ some 'e' ∧ rest.head? ≠ some 'E') :
    readExponent? (exponent ++ rest) = some (exponent?, rest) := by
  cases h with
  | none =>
    cases rest with
    | nil => rfl
    | cons c rest =>
      rw [List.nil_append, readExponent?, if_neg]
      simpa using hmark
  | @digits mark negative sign digits hmark hsign hdigits =>
    have hempty : digits.isEmpty = false := by simpa using hdigits.1
    rw [List.cons_append, readExponent?, if_pos (by simpa using hmark), List.append_assoc,
      spanSign_append hsign hdigits]
    simp only [spanDigits_append hdigits hrest, hempty, Bool.false_eq_true, if_false]

lemma exists_exponent_of_readExponent? {cs rest : List Char} {exponent? : Option Int}
    (hcs : NoDigit cs) (h : readExponent? cs = some (exponent?, rest)) :
    ∃ exponent, cs = exponent ++ rest ∧ Exponent exponent? exponent ∧ NoDigit rest := by
  cases cs with
  | nil =>
    obtain ⟨rfl, rfl⟩ : none = exponent? ∧ [] = rest := by simpa [readExponent?] using h
    exact ⟨[], rfl, .none, hcs⟩
  | cons c cs =>
    rw [readExponent?] at h
    split at h
    · rename_i hmark
      obtain ⟨sign, hsplit, hsign⟩ := exists_sign cs
      simp only [Option.ite_none_left_eq_some, Option.some.injEq, Prod.mk.injEq] at h
      obtain ⟨hne, rfl, rfl⟩ := h
      obtain ⟨hcs', hdigits, hrest⟩ := spanDigits_split (Decimal.spanSign cs).2
      refine ⟨_, ?_, .digits (by simpa using hmark) hsign ⟨by simpa using hne, hdigits⟩, hrest⟩
      rw [List.cons_append, List.append_assoc, ← hcs', ← hsplit]
    · obtain ⟨rfl, rfl⟩ : none = exponent? ∧ c :: cs = rest := by simpa using h
      exact ⟨[], rfl, .none, hcs⟩

lemma spanMinus_append {whole : List Char} (hwhole : Digits whole) (negative : Bool)
    (rest : List Char) :
    spanMinus ((if negative then ['-'] else []) ++ (whole ++ rest)) = (negative, whole ++ rest) := by
  cases negative with
  | true => rfl
  | false =>
    obtain ⟨c, cs, rfl, hc⟩ := hwhole.exists_cons
    show spanMinus (c :: (cs ++ rest)) = _
    rw [spanMinus.eq_def]
    split
    · rename_i heq
      obtain ⟨rfl, -⟩ := List.cons.inj heq
      exact absurd hc (by decide)
    · rfl

lemma spanMinus_split (cs : List Char) :
    cs = (if (spanMinus cs).1 then ['-'] else []) ++ (spanMinus cs).2 := by
  rw [spanMinus.eq_def]
  split <;> rfl

/-- A number is read as it is written, if nothing comes next that could belong to it. -/
lemma readNumber?_append {n : Number} {cs rest : List Char} (h : Numeral n cs)
    (hrest : NoDigit rest)
    (hnext : rest.head? ≠ some '.' ∧ rest.head? ≠ some 'e' ∧ rest.head? ≠ some 'E') :
    readNumber? (cs ++ rest) = some (number n, rest) := by
  obtain @⟨negative, whole, digits, fraction, exponent, exponent?, hwhole, hzero, hfraction,
    hexponent⟩ := h
  have hexponent_rest := noDigit_append (noDigit_of_exponent hexponent) hrest
  have hfraction_rest := noDigit_append (noDigit_of_fraction hfraction) hexponent_rest
  have hpoint : (exponent ++ rest).head? ≠ some '.' := by
    cases hexponent with
    | none => exact hnext.1
    | digits hmark => rcases hmark with rfl | rfl <;> simp
  simp only [List.append_assoc]
  simp only [readNumber?, spanMinus_append hwhole, readWhole?_append hwhole hzero hfraction_rest,
    readFraction?_append hfraction hexponent_rest hpoint,
    readExponent?_append hexponent hrest hnext.2, Option.bind_eq_bind, Option.bind_some,
    Option.pure_def]

lemma exists_numeral_of_readNumber? {cs rest : List Char} {token : Token}
    (h : readNumber? cs = some (token, rest)) :
    ∃ n numeral, token = number n ∧ cs = numeral ++ rest ∧ Numeral n numeral ∧ NoDigit rest := by
  simp only [readNumber?, Option.bind_eq_bind, Option.bind_eq_some_iff, Option.pure_def,
    Option.some.injEq, Prod.mk.injEq, Prod.exists] at h
  obtain ⟨whole, _, hreadWhole, digits, _, hreadFraction, exponent?, rest, hreadExponent,
    rfl, rfl⟩ := h
  obtain ⟨hcs, hwhole, hzero, hrest⟩ := eq_append_of_readWhole? hreadWhole
  obtain ⟨fraction, rfl, hfraction, hrest⟩ := exists_fraction_of_readFraction? hrest hreadFraction
  obtain ⟨exponent, rfl, hexponent, hrest⟩ := exists_exponent_of_readExponent? hrest hreadExponent
  refine ⟨_, _, rfl, ?_, .mk hwhole hzero hfraction hexponent, hrest⟩
  conv_lhs => rw [spanMinus_split cs, hcs]
  simp only [List.append_assoc]

/-! ## Strings -/

lemma readPieces?_append {pieces : List Piece} {cs : List Char} (h : Pieces pieces cs)
    (done : List Piece) (rest : List Char) :
    readPieces? done (cs ++ '"' :: rest) = some (done.reverse ++ pieces, rest) := by
  induction h generalizing done with
  | nil => rw [List.nil_append, readPieces?, List.append_nil]
  | char hcontrol hquote hbackslash h ih =>
    rw [List.cons_append, readPieces?, if_neg (by omega), ih, List.reverse_cons,
      List.append_assoc, List.singleton_append]
    · exact hquote
    · exact fun _ _ _ _ _ h => absurd h hbackslash
    · exact fun _ _ h => absurd h hbackslash
  | @escape letter c pieces cs hletter h ih =>
    have hu : letter ≠ 'u' := by
      rintro rfl
      cases hletter
    rw [List.cons_append, List.cons_append, readPieces?, hletter]
    · simp only [ih, List.reverse_cons, List.append_assoc, List.singleton_append]
    · exact fun _ _ _ _ _ h => absurd h hu
  | unit hdigits h ih =>
    simp only [List.cons_append]
    rw [readPieces?_unit hdigits, ih, List.reverse_cons, List.append_assoc,
      List.singleton_append]

lemma exists_pieces_of_readPieces? {done pieces : List Piece} {cs rest : List Char}
    (h : readPieces? done cs = some (pieces, rest)) :
    ∃ body new, cs = body ++ '"' :: rest ∧ pieces = done.reverse ++ new ∧ Pieces new body := by
  fun_induction readPieces? done cs with
  | case1 => cases h
  | case2 done cs =>
    obtain ⟨rfl, rfl⟩ := Prod.mk.inj (Option.some.inj h)
    exact ⟨[], [], rfl, (List.append_nil _).symm, .nil⟩
  | case3 done a b c d cs n hdigits ih =>
    obtain ⟨body, new, rfl, rfl, hnew⟩ := ih h
    exact ⟨_, .unit n :: new, rfl, by simp, .unit hdigits hnew⟩
  | case4 => cases h
  | case5 done letter cs _ c hletter ih =>
    obtain ⟨body, new, rfl, rfl, hnew⟩ := ih h
    exact ⟨_, .char c :: new, rfl, by simp, .escape hletter hnew⟩
  | case6 => cases h
  | case7 => cases h
  | case8 done c cs hquote hunit hbackslash hcontrol ih =>
    obtain ⟨body, new, rfl, rfl, hnew⟩ := ih h
    refine ⟨_, .char c :: new, rfl, by simp, .char (by omega) hquote ?_ hnew⟩
    rintro rfl
    -- a backslash is only read together with what it escapes
    obtain ⟨c, cs, hcs⟩ := List.exists_cons_of_ne_nil (l := body ++ '"' :: rest) (by simp)
    exact hbackslash c cs rfl hcs

/-! ## Tokens -/

/-- What a number starts with. -/
lemma Numeral.exists_cons {n : Number} {cs : List Char} (h : Numeral n cs) :
    ∃ c rest, cs = c :: rest ∧ (c = '-' ∨ c.isDigit = true) := by
  obtain @⟨negative, whole, _, _, _, _, hwhole, -, -, -⟩ := h
  cases negative with
  | true => exact ⟨'-', _, rfl, Or.inl rfl⟩
  | false =>
    obtain ⟨c, cs, rfl, hc⟩ := hwhole.exists_cons
    exact ⟨c, _, rfl, Or.inr hc⟩

/-- What a token starts with is no blank and continues no number. -/
lemma Lexeme.exists_cons {token : Token} {lexeme : List Char} (h : Lexeme token lexeme) :
    ∃ c cs, lexeme = c :: cs ∧ isBlank c = false ∧ c ∉ ['.', 'e', 'E'] := by
  cases h with
  | number h =>
    obtain ⟨c, cs, rfl, hc⟩ := h.exists_cons
    refine ⟨c, cs, rfl, ?_, ?_⟩
    · rw [Bool.eq_false_iff]
      intro hblank
      simp only [isBlank, Bool.or_eq_true, beq_iff_eq] at hblank
      rcases hblank with ((rfl | rfl) | rfl) | rfl <;> exact absurd hc (by decide)
    · intro hmem
      simp only [List.mem_cons, List.not_mem_nil, or_false] at hmem
      rcases hmem with rfl | rfl | rfl <;> exact absurd hc (by decide)
  | _ => exact ⟨_, _, rfl, by decide, by decide⟩

lemma first?_of_number {c : Char} (h : c = '-' ∨ c.isDigit = true) (cs : List Char) :
    first? c cs = readNumber? (c :: cs) := by
  unfold first?
  split
  case h_8 => rw [if_pos (by simpa using h)]
  all_goals exact absurd h (by decide)

/-- A token is read as it is written, and so far as it is written. -/
lemma first?_append {token : Token} {c : Char} {cs rest : List Char}
    (h : Lexeme token (c :: cs))
    (hrest : ∀ n, token = .number n → NoDigit rest ∧ ∀ d ∈ ['.', 'e', 'E'], rest.head? ≠ some d) :
    first? c (cs ++ rest) = some (token, rest) := by
  generalize hlexeme : c :: cs = lexeme at h
  cases h with
  | @number n _ h =>
    subst hlexeme
    obtain ⟨c', cs', hcs, hc⟩ := h.exists_cons
    obtain ⟨rfl, rfl⟩ := List.cons.inj hcs
    obtain ⟨hdigit, hnext⟩ := hrest n rfl
    rw [first?_of_number hc, ← List.cons_append]
    exact readNumber?_append h hdigit ⟨hnext _ (by simp), hnext _ (by simp), hnext _ (by simp)⟩
  | @string pieces body h =>
    obtain ⟨rfl, rfl⟩ := List.cons.inj hlexeme
    show readString? ((body ++ ['"']) ++ rest) = _
    rw [List.append_assoc, List.singleton_append, readString?, readPieces?_append h]
    rfl
  | _ =>
    obtain ⟨rfl, rfl⟩ := List.cons.inj hlexeme
    rfl

lemma lexeme_of_readWord? {cs rest : List Char} {token : Token}
    (h : readWord? cs = some (token, rest)) :
    ∃ lexeme, cs = lexeme ++ rest ∧ Lexeme token lexeme ∧ ∀ n, token ≠ .number n := by
  obtain ⟨⟨word, token'⟩, hmem, hfound⟩ := List.exists_of_findSome?_eq_some h
  simp only [Option.map_eq_some_iff, Prod.mk.injEq] at hfound
  obtain ⟨_, hafter, rfl, rfl⟩ := hfound
  refine ⟨word.toList, Text.afterWord?_eq_some_iff.mp hafter, ?_⟩
  simp only [List.mem_cons, Prod.mk.injEq, List.not_mem_nil, or_false] at hmem
  rcases hmem with ⟨rfl, rfl⟩ | ⟨rfl, rfl⟩ | ⟨rfl, rfl⟩
  · exact ⟨.nullWord, by simp⟩
  · exact ⟨.trueWord, by simp⟩
  · exact ⟨.falseWord, by simp⟩

/-- What is read as a token is written as the token. -/
lemma exists_lexeme_of_first? {c : Char} {cs rest : List Char} {token : Token}
    (h : first? c cs = some (token, rest)) :
    ∃ lexeme, c :: cs = lexeme ++ rest ∧ Lexeme token lexeme ∧
      ∀ n, token = .number n → NoDigit rest := by
  unfold first? at h
  split at h
  case h_7 =>
    simp only [readString?, Option.map_eq_some_iff, Prod.mk.injEq, Prod.exists] at h
    obtain ⟨pieces, _, hread, rfl, rfl⟩ := h
    obtain ⟨body, new, rfl, rfl, hnew⟩ := exists_pieces_of_readPieces? hread
    exact ⟨'"' :: (body ++ ['"']), by simp, .string hnew, by simp⟩
  case h_8 =>
    split at h
    · obtain ⟨n, numeral, rfl, hcs, hnumeral, hrest⟩ := exists_numeral_of_readNumber? h
      exact ⟨numeral, hcs, .number hnumeral, fun _ _ => hrest⟩
    · obtain ⟨lexeme, hcs, hlexeme, hnumber⟩ := lexeme_of_readWord? h
      exact ⟨lexeme, hcs, hlexeme, fun n hn => absurd hn (hnumber n)⟩
  all_goals obtain ⟨rfl, rfl⟩ := Prod.mk.inj (Option.some.inj h)
  · exact ⟨_, rfl, .beginArray, by simp⟩
  · exact ⟨_, rfl, .endArray, by simp⟩
  · exact ⟨_, rfl, .beginObject, by simp⟩
  · exact ⟨_, rfl, .endObject, by simp⟩
  · exact ⟨_, rfl, .colon, by simp⟩
  · exact ⟨_, rfl, .comma, by simp⟩

/-! ## Texts -/

lemma scan_gap {gap : List Char} (hgap : Gap gap) (done : List Token) (cs : List Char) :
    scan done (gap ++ cs) = scan done cs := by
  induction gap with
  | nil => rfl
  | cons c gap ih =>
    obtain ⟨hc, hgap⟩ := List.forall_mem_cons.mp hgap
    rw [List.cons_append, scan, if_pos hc, ih hgap]

lemma Spelled.blank {c : Char} {tokens : List Token} {cs : List Char} (hc : isBlank c = true)
    (h : Spelled tokens cs) : Spelled tokens (c :: cs) := by
  cases h with
  | nil hgap => exact .nil (List.forall_mem_cons.mpr ⟨hc, hgap⟩)
  | @cons token tokens gap lexeme cs hgap hlexeme hdigit h =>
    have hgap' : Gap (c :: gap) := List.forall_mem_cons.mpr ⟨hc, hgap⟩
    exact .cons hgap' hlexeme hdigit h

/-- A text starts with a blank or with a token, so it does not continue a number that ends in
front of it. -/
lemma Spelled.head?_ne {tokens : List Token} {cs : List Char} (h : Spelled tokens cs) :
    ∀ c ∈ ['.', 'e', 'E'], cs.head? ≠ some c := by
  intro c hc hhead
  have hblank : ∀ c ∈ ['.', 'e', 'E'], ¬ isBlank c = true := by simp [isBlank]
  cases h with
  | nil hgap => exact hblank c hc (hgap c (List.mem_of_mem_head? hhead))
  | @cons token tokens gap lexeme cs hgap hlexeme hdigit h =>
    cases gap with
    | nil =>
      obtain ⟨d, ds, rfl, -, hd⟩ := hlexeme.exists_cons
      obtain rfl : d = c := by simpa using hhead
      exact hd hc
    | cons b gap =>
      obtain rfl : b = c := by simpa using hhead
      exact hblank b hc (hgap b List.mem_cons_self)

/-- Tokens are found in the text that they are written as. -/
theorem scan_of_spelled {tokens : List Token} {cs : List Char} (h : Spelled tokens cs)
    (done : List Token) : scan done cs = done.reverse ++ tokens := by
  induction h generalizing done with
  | @nil gap hgap =>
    rw [← List.append_nil gap, scan_gap hgap, scan, List.append_nil]
  | @cons token tokens gap lexeme cs hgap hlexeme hdigit h ih =>
    obtain ⟨c, lexeme, rfl, hblank, -⟩ := hlexeme.exists_cons
    have hfirst : first? c (lexeme ++ cs) = some (token, cs) :=
      first?_append hlexeme fun n hn => ⟨hdigit n hn, h.head?_ne⟩
    rw [scan_gap hgap, List.cons_append, scan_of_first hblank hfirst, ih, List.reverse_cons,
      List.append_assoc, List.singleton_append]

/-- What is found in a text before a fault is written there. -/
theorem exists_spelled_of_scan (done : List Token) (cs : List Char) :
    ∃ tokens, scan done cs = done.reverse ++ tokens ∧ (fault ∉ tokens → Spelled tokens cs) := by
  fun_induction scan done cs with
  | case1 done => exact ⟨[], (List.append_nil _).symm, fun _ => .nil (List.forall_mem_nil _)⟩
  | case2 done c cs hblank ih =>
    obtain ⟨tokens, hscan, hspelled⟩ := ih
    exact ⟨tokens, hscan, fun hfault => (hspelled hfault).blank hblank⟩
  | case3 done c cs hblank token rest hfirst ih =>
    obtain ⟨tokens, hscan, hspelled⟩ := ih
    obtain ⟨lexeme, hcs, hlexeme, hdigit⟩ := exists_lexeme_of_first? hfirst
    refine ⟨token :: tokens, by simp [hscan], ?_⟩
    intro hfault
    rw [hcs]
    have hgap : Gap [] := List.forall_mem_nil _
    exact Spelled.cons hgap hlexeme hdigit (hspelled fun h => hfault (by simp [h]))
  | case4 done c cs hblank hfirst =>
    exact ⟨[fault], by simp, fun h => absurd (List.mem_singleton_self _) h⟩

lemma Spelled.fault_notMem {tokens : List Token} {cs : List Char} (h : Spelled tokens cs) :
    fault ∉ tokens := by
  induction h with
  | nil => exact List.not_mem_nil
  | cons hgap hlexeme hdigit h ih =>
    rw [List.mem_cons, not_or]
    refine ⟨?_, ih⟩
    rintro rfl
    cases hlexeme

end Token

mutual

/-- A document has a fault where its tokens have one. -/
lemma Document.whole_iff (d : Document) : d.Whole ↔ Token.fault ∉ d.tokens := by
  cases d with
  | array items =>
    simpa [Document.Whole, Document.tokens] using items.whole_iff List.not_mem_nil
  | object members =>
    simpa [Document.Whole, Document.tokens] using members.whole_iff List.not_mem_nil
  | _ => simp [Document.Whole, Document.tokens]

lemma Items.whole_iff (items : Items) {separator : List Token} (h : .fault ∉ separator) :
    items.Whole ↔ Token.fault ∉ items.tokens separator := by
  cases items with
  | item value rest =>
    have hrest : rest.Whole ↔ .fault ∉ rest.tokens [.comma] := rest.whole_iff (by simp)
    simp [Items.Whole, Items.tokens, value.whole_iff, hrest, h]
  | _ => simp [Items.Whole, Items.tokens]

lemma Members.whole_iff (members : Members) {separator : List Token} (h : .fault ∉ separator) :
    members.Whole ↔ Token.fault ∉ members.tokens separator := by
  cases members with
  | member name? value rest =>
    have hrest : rest.Whole ↔ .fault ∉ rest.tokens [.comma] := rest.whole_iff (by simp)
    simp [Members.Whole, Members.tokens, value.whole_iff, hrest, h]
  | _ => simp [Members.Whole, Members.tokens]

end

namespace Document

/-- `json` is a text of the document. -/
def IsText (d : Document) (json : String) : Prop := Token.Spelled d.tokens json.toList

lemma isText_iff_tokens {d : Document} {json : String} :
    d.IsText json ↔ d.Whole ∧ Token.ofText json = d.tokens := by
  constructor
  · intro h
    refine ⟨d.whole_iff.mpr h.fault_notMem, ?_⟩
    rw [Token.ofText, Token.scan_of_spelled h, List.reverse_nil, List.nil_append]
  · rintro ⟨hwhole, htokens⟩
    obtain ⟨tokens, hscan, hspelled⟩ := Token.exists_spelled_of_scan [] json.toList
    obtain rfl : d.tokens = tokens := by
      rw [← htokens, Token.ofText, hscan, List.reverse_nil, List.nil_append]
    exact hspelled (d.whole_iff.mp hwhole)

/-- **The texts of a document** are those in which it is found, with nothing but blanks behind
it, if there is no fault in it. -/
theorem isText_iff {d : Document} {json : String} :
    d.IsText json ↔ d.Whole ∧ ofText json = (d, []) := by
  rw [isText_iff_tokens, ofText]
  refine and_congr_right ?_
  intro hwhole
  constructor
  · intro htokens
    rw [htokens, ← List.append_nil d.tokens, ofTokens_tokens hwhole]
  · intro hd
    rcases whole_or_torn_of_ofTokens hd with ⟨-, htokens⟩ | htorn
    · rw [htokens, List.append_nil]
    · exact absurd hwhole htorn.not_whole

/-- A text is the text of one document only. -/
lemma IsText.unique {d d' : Document} {json : String} (h : d.IsText json)
    (h' : d'.IsText json) : d = d' := by
  have hd := (isText_iff.mp h).2
  rw [(isText_iff.mp h').2] at hd
  exact (congrArg Prod.fst hd).symm

end Document
end Verdict.Json
