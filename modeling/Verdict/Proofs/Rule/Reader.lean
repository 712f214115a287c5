import Verdict.Proofs.Rule.Piece
/-
Tokens, read one after the other.

`Token.scan` walks over the text once and takes along from token to token what it knows:
the character in front, and whether a quote is open.  A reader that takes one token at a
time starts anew behind each of them (`next?`).  It looks for a parenthesis, then for a
keyword, whatever stands in front of that, and takes anything else for an operand, which
goes on to the first delimiter behind its first character.

Both find the same tokens (`ofText_eq_readAll`).  Behind a delimiter no quote is open, and
no word is cut; and an operand does not begin with a keyword that a delimiter would be.
-/
namespace Verdict.Rule.Token

open Text

/-- The keyword at the start of `cs`, if no word character follows it, and what is behind
it. -/
def keyword? (cs : List Char) : Option (Connective × List Char) :=
  [Connective.and, .or].findSome? fun op =>
    ((afterWord? op.keyword.toList cs).filter (isWordEdge ·.head?)).map (op, ·)

/-- Outside of quotes an operand ends in front of `cs`; `before` is its last character so
far. -/
def endsOperand (before : Option Char) (cs : List Char) : Bool :=
  cs.head? == some '(' || cs.head? == some ')' ||
    before.any (!isWordChar ·) && (keyword? cs).isSome

/-- The part of `cs` that belongs to an operand, and what is behind it; `before` is the last
character of the operand so far, and `quoted` says whether a quote is open there. -/
def spanOperand (before : Option Char) (quoted : Bool) : List Char → List Char × List Char
  | [] => ([], [])
  | c :: cs =>
    if quoted then (spanOperand (some c) (c != '\'') cs).map (c :: ·) id
    else if c == '\'' then (spanOperand (some c) true cs).map (c :: ·) id
    else if endsOperand before (c :: cs) then ([], c :: cs)
    else (spanOperand (some c) false cs).map (c :: ·) id

/-- The token at the start of `cs`, and what is behind it. -/
def next? (cs : List Char) : Option (Token × List Char) :=
  match cs with
  | '(' :: rest => some (opening, rest)
  | ')' :: rest => some (closing, rest)
  | _ =>
    match keyword? cs with
    | some (op, rest) => some (connective op, rest)
    | none =>
      match spanOperand none false cs with
      | ([], _) => none
      | (text, rest) => some (operand (.ofList (trim text)), rest)

/-! ## Keywords and operands -/

lemma keyword?_eq_some_iff {cs rest : List Char} {op : Connective} :
    keyword? cs = some (op, rest) ↔
      cs = op.keyword.toList ++ rest ∧ isWordEdge rest.head? = true := by
  have hfound (op' : Connective) :
      ((afterWord? op'.keyword.toList cs).filter (isWordEdge ·.head?)).map (op', ·) =
        some (op, rest) ↔
      op' = op ∧ cs = op.keyword.toList ++ rest ∧ isWordEdge rest.head? = true := by
    simp only [Option.map_eq_some_iff, Option.filter_eq_some_iff, afterWord?_eq_some_iff,
      Prod.mk.injEq]
    constructor
    · rintro ⟨rest', hrest, rfl, rfl⟩
      exact ⟨rfl, hrest⟩
    · rintro ⟨rfl, hrest⟩
      exact ⟨rest, hrest, rfl, rfl⟩
  constructor
  · intro h
    obtain ⟨op', -, h⟩ := List.exists_of_findSome?_eq_some h
    exact ((hfound op').mp h).2
  · intro h
    have hop := (hfound op).mpr ⟨rfl, h⟩
    cases op with
    | and => rw [keyword?, List.findSome?_cons, hop]
    | or =>
      have hand : afterWord? Connective.and.keyword.toList cs = none := by
        rw [h.1]
        simp [afterWord?, Connective.keyword]
      rw [keyword?, List.findSome?_cons, hand, List.findSome?_cons, hop]
      rfl

/-- Nothing is lost. -/
lemma fst_append_snd_spanOperand (before : Option Char) (quoted : Bool) (cs : List Char) :
    (spanOperand before quoted cs).1 ++ (spanOperand before quoted cs).2 = cs := by
  induction cs generalizing before quoted with
  | nil => rfl
  | cons c cs ih =>
    rw [spanOperand]
    split_ifs
    · exact congrArg (c :: ·) (ih _ _)
    · exact congrArg (c :: ·) (ih _ _)
    · rfl
    · exact congrArg (c :: ·) (ih _ _)

lemma starts_connective_iff {before : Option Char} {cs : List Char} {op : Connective} :
    Starts before cs (connective op) ↔
      isWordEdge before = true ∧ ∃ rest, keyword? cs = some (op, rest) := by
  simp only [Starts, keyword?_eq_some_iff]

/-- An operand ends in front of delimiters only. -/
lemma exists_starts_of_endsOperand {before : Option Char} {cs : List Char}
    (h : endsOperand before cs = true) : ∃ t, Starts before cs t := by
  simp only [endsOperand, Bool.or_eq_true, Bool.and_eq_true, beq_iff_eq, Option.any_eq_true,
    Bool.not_eq_true', Option.isSome_iff_exists] at h
  obtain (hhead | hhead) | ⟨⟨b, rfl, hb⟩, ⟨op, rest⟩, hkeyword⟩ := h
  · exact ⟨opening, hhead⟩
  · exact ⟨closing, hhead⟩
  · refine ⟨connective op, starts_connective_iff.mpr ⟨?_, rest, hkeyword⟩⟩
    rw [isWordEdge_some, hb, Bool.not_false]

/-- Behind its first character an operand ends in front of each of them. -/
lemma Starts.endsOperand {b : Char} {cs : List Char} {t : Token} (h : Starts (some b) cs t) :
    endsOperand (some b) cs = true := by
  simp only [Token.endsOperand, Bool.or_eq_true, Bool.and_eq_true, beq_iff_eq, Option.any_some,
    Option.isSome_iff_exists]
  cases t with
  | opening => exact .inl (.inl h)
  | closing => exact .inl (.inr h)
  | operand text => exact h.elim
  | connective op =>
    obtain ⟨hedge, rest, hkeyword⟩ := starts_connective_iff.mp h
    exact .inr ⟨hedge, _, hkeyword⟩

/-- Inside of quotes, and where nothing ends it, an operand takes a character. -/
lemma spanOperand_cons {before : Option Char} {quoted : Bool} {c : Char} {cs : List Char}
    (h : quoted = true ∨ endsOperand before (c :: cs) = false) :
    spanOperand before quoted (c :: cs) =
      (spanOperand (some c) (quoted != (c == '\'')) cs).map (c :: ·) id := by
  rw [spanOperand]
  cases quoted with
  | true => rw [if_pos rfl, Bool.true_bne, bne]
  | false =>
    rw [if_neg Bool.false_ne_true, Bool.false_bne, h.resolve_left Bool.false_ne_true]
    cases hquote : c == '\'' with
    | true => rw [if_pos rfl]
    | false => rw [if_neg Bool.false_ne_true, if_neg Bool.false_ne_true]

/-- Behind its first character an operand stops in front of a delimiter. -/
lemma Starts.spanOperand_eq {b c : Char} {cs : List Char} {t : Token}
    (h : Starts (some b) (c :: cs) t) : spanOperand (some b) false (c :: cs) = ([], c :: cs) := by
  have hquote : ¬ (c == '\'') = true := by
    rw [beq_iff_eq]
    rintro rfl
    exact h.quote_not_mem h.head_mem
  rw [spanOperand, if_neg Bool.false_ne_true, if_neg hquote, if_pos h.endsOperand]

/-- An operand goes on through a text without delimiters and ends in front of one, or where
nothing is left.  The induction is on what is still to be read, behind the part `pre`. -/
lemma spanOperand_append (pre : List Char) {front post : List Char}
    (hfront : ∀ j t, pre.length ≤ j → j < (pre ++ front).length →
      ¬ DelimiterAt (pre ++ front ++ post) j t)
    (hpost : post = [] ∨ pre ++ front ≠ [] ∧
      ∃ t, DelimiterAt (pre ++ front ++ post) (pre ++ front).length t) :
    spanOperand pre.getLast? (openQuote pre) (front ++ post) = (front, post) := by
  induction front generalizing pre with
  | nil =>
    cases post with
    | nil => rfl
    | cons c post =>
      obtain ⟨hne, t, hd⟩ := hpost.resolve_left (List.cons_ne_nil c post)
      rw [List.append_nil] at hne hd
      obtain ⟨hclosed, hstarts⟩ := delimiterAt_behind_iff.mp hd
      rw [List.getLast?_eq_some_getLast hne] at hstarts ⊢
      rw [hclosed, List.nil_append, hstarts.spanOperand_eq]
  | cons c front ih =>
    have hgoes : openQuote pre = true ∨
        endsOperand pre.getLast? (c :: (front ++ post)) = false := by
      refine or_iff_not_imp_left.mpr fun hopen => Bool.eq_false_iff.mpr fun hends => ?_
      obtain ⟨t, ht⟩ := exists_starts_of_endsOperand hends
      refine hfront pre.length t (Nat.le_refl _) (by simp) ?_
      rw [List.append_assoc]
      exact delimiterAt_behind_iff.mpr ⟨Bool.eq_false_iff.mpr hopen, ht⟩
    rw [List.append_cons] at hfront hpost
    have hrest := ih (pre ++ [c])
      (fun j t hle hlt => hfront j t (by rw [List.length_append] at hle; omega) hlt) hpost
    rw [List.getLast?_concat, openQuote_concat] at hrest
    rw [List.cons_append, spanOperand_cons hgoes, hrest]
    rfl

/-! ## All tokens -/

/-- Something is read of the text. -/
lemma length_lt_of_next? {cs rest : List Char} {t : Token} (h : next? cs = some (t, rest)) :
    rest.length < cs.length := by
  simp only [next?] at h
  split at h
  · obtain ⟨-, rfl⟩ := Prod.mk.inj (Option.some.inj h)
    exact Nat.lt_succ_self _
  · obtain ⟨-, rfl⟩ := Prod.mk.inj (Option.some.inj h)
    exact Nat.lt_succ_self _
  · split at h
    · rename_i op rest' hkeyword
      obtain ⟨-, rfl⟩ := Prod.mk.inj (Option.some.inj h)
      have hpos := List.length_pos_iff.mpr (keyword_ne_nil op)
      rw [(keyword?_eq_some_iff.mp hkeyword).1, List.length_append]
      omega
    · have hspan := fst_append_snd_spanOperand none false cs
      split at h
      · cases h
      · rename_i text rest' hne hoperand
        obtain ⟨-, rfl⟩ := Prod.mk.inj (Option.some.inj h)
        have hpos := List.length_pos_iff.mpr hne
        rw [hoperand] at hspan
        rw [← show text ++ rest' = cs from hspan, List.length_append]
        omega

/-- All tokens of `cs`, with any blanks in front of each. -/
def readAll (cs : List Char) : List Token :=
  match _hnext : next? (trimStart isBlank cs) with
  | none => []
  | some (t, rest) => t :: readAll rest
termination_by cs.length
decreasing_by
  exact (length_lt_of_next? _hnext).trans_le (List.dropWhile_suffix isBlank).length_le

lemma readAll_eq_nil {cs : List Char} (h : next? (trimStart isBlank cs) = none) :
    readAll cs = [] := by
  rw [readAll]
  split
  · rfl
  · simp_all

lemma readAll_eq_cons {cs rest : List Char} {t : Token}
    (h : next? (trimStart isBlank cs) = some (t, rest)) : readAll cs = t :: readAll rest := by
  rw [readAll]
  split
  · simp_all
  · simp_all

/-- A delimiter is the next token, whatever is in front of it. -/
lemma Starts.next?_eq {before : Option Char} {rest : List Char} {t : Token}
    (h : Starts before (t.written ++ rest) t) : next? (t.written ++ rest) = some (t, rest) := by
  cases t with
  | opening => rfl
  | closing => rfl
  | operand text => exact h.elim
  | connective op =>
    obtain ⟨-, rest', hrest, hedge⟩ := h
    obtain rfl := List.append_cancel_left hrest
    have hkeyword := keyword?_eq_some_iff.mpr ⟨Eq.refl (op.keyword.toList ++ rest), hedge⟩
    cases op with
    | and =>
      simp only [written, next?, hkeyword]
      rfl
    | or =>
      simp only [written, next?, hkeyword]
      rfl

/-- Where no delimiter starts, an operand does. -/
lemma next?_of_not_starts {cs text rest : List Char} (hnone : ∀ t, ¬ Starts none cs t)
    (hspan : spanOperand none false cs = (text, rest)) (hne : text ≠ []) :
    next? cs = some (operand (.ofList (trim text)), rest) := by
  have hkeyword : keyword? cs = none := by
    refine Option.eq_none_iff_forall_ne_some.mpr ?_
    rintro ⟨op, rest⟩ hkeyword
    exact hnone (connective op) (starts_connective_iff.mpr ⟨rfl, rest, hkeyword⟩)
  unfold next?
  split
  · exact (hnone opening rfl).elim
  · exact (hnone closing rfl).elim
  · rw [hkeyword, hspan]
    cases text with
    | nil => exact absurd rfl hne
    | cons c text => rfl

lemma readAll_gap_append {gap : List Char} (hgap : Blank gap) (cs : List Char) :
    readAll (gap ++ cs) = readAll cs := by
  have hskip : trimStart isBlank (gap ++ cs) = trimStart isBlank cs :=
    List.dropWhile_append_of_pos hgap
  cases hnext : next? (trimStart isBlank cs) with
  | none => rw [readAll_eq_nil hnext, readAll_eq_nil (hskip ▸ hnext)]
  | some found => rw [readAll_eq_cons hnext, readAll_eq_cons (hskip ▸ hnext)]

/-- A stretch that does not begin with a blank is read as an operand. -/
lemma readAll_operand {c : Char} {cs post : List Char} (hc : isBlank c = false)
    (hstretch : ∀ j t, j < (c :: cs).length → ¬ DelimiterAt (c :: cs ++ post) j t)
    (hpost : post = [] ∨ ∃ t, DelimiterAt (c :: cs ++ post) (c :: cs).length t) :
    readAll (c :: cs ++ post) = operand (.ofList (trim (c :: cs))) :: readAll post := by
  have hstart : trimStart isBlank (c :: cs ++ post) = c :: cs ++ post :=
    List.dropWhile_cons_of_neg (by simp [hc])
  have hnone : ∀ t, ¬ Starts none (c :: cs ++ post) t := fun t ht =>
    hstretch 0 t (Nat.zero_lt_succ _) ⟨rfl, ht⟩
  have hspan : spanOperand none false (c :: cs ++ post) = (c :: cs, post) :=
    spanOperand_append [] (fun j t _ hj => hstretch j t hj)
      (hpost.imp_right fun hd => ⟨List.cons_ne_nil c cs, hd⟩)
  refine readAll_eq_cons ?_
  rw [hstart, next?_of_not_starts hnone hspan (List.cons_ne_nil c cs)]

/-- A stretch is read as its condition, if it is not blank. -/
lemma readAll_stretch (stretch post : List Char)
    (hstretch : ∀ j t, j < stretch.length → ¬ DelimiterAt (stretch ++ post) j t)
    (hpost : post = [] ∨ ∃ t, DelimiterAt (stretch ++ post) stretch.length t) :
    readAll (stretch ++ post) = ofStretch stretch ++ readAll post := by
  by_cases hblank : Blank stretch
  · rw [readAll_gap_append hblank, ofStretch, if_pos hblank, List.nil_append]
  · rw [ofStretch, if_neg hblank]
    obtain ⟨gap, c, cs, hgap, hc, rfl⟩ := exists_gap_of_not_blank hblank
    have hshift : ∀ j t, j < (c :: cs ++ post).length →
        (DelimiterAt (gap ++ (c :: cs) ++ post) (gap.length + j) t ↔
          DelimiterAt (c :: cs ++ post) j t) := by
      intro j t hj
      rw [List.append_assoc]
      exact delimiterAt_gap_append hgap hj
    have htrim := trim_append_gaps hgap blank_nil (c :: cs)
    rw [List.append_nil] at htrim
    rw [htrim, List.append_assoc, readAll_gap_append hgap, readAll_operand hc]
    · rfl
    · intro j t hj hd
      rw [← hshift j t hd.lt_length] at hd
      exact hstretch _ t (by rw [List.length_append]; omega) hd
    · rw [List.length_append] at hpost
      refine hpost.imp_right fun h => h.imp fun t hd => (hshift _ t ?_).mp hd
      have hlt := hd.lt_length
      simp only [List.length_append] at hlt ⊢
      omega

/-- A delimiter is read as itself. -/
lemma Starts.readAll_eq {before : Option Char} {rest : List Char} {t : Token}
    (h : Starts before (t.written ++ rest) t) :
    readAll (t.written ++ rest) = t :: readAll rest := by
  refine readAll_eq_cons ?_
  obtain ⟨c, cs, hwritten⟩ := List.exists_cons_of_length_pos h.length_pos
  have hc : isBlank c = false := by
    rw [hwritten, List.cons_append] at h
    exact h.isBlank_eq_false
  have hstart : trimStart isBlank (t.written ++ rest) = t.written ++ rest := by
    rw [hwritten]
    exact List.dropWhile_cons_of_neg (by simp [hc])
  rw [hstart, h.next?_eq]

/-- **Reading tokens one after the other finds the tokens of the text.** -/
theorem ofText_eq_readAll (text : String) : ofText text = readAll text.toList := by
  rw [ofText_eq_ofChars]
  induction text.toList using pieces_induction with
  | hquiet cs hquiet =>
    have hread := readAll_stretch cs []
      (fun j t _ => by rw [List.append_nil]; exact hquiet j t) (.inl rfl)
    have hnil : readAll [] = [] := readAll_eq_nil rfl
    rw [List.append_nil, hnil, List.append_nil] at hread
    rw [ofChars_of_quiet hquiet, hread]
  | hfirst cs i t hfirst ih =>
    have hi : (cs.take i).length = i := List.length_take_of_le hfirst.at_.lt_length.le
    have hread := readAll_stretch (cs.take i) (cs.drop i)
      (by rw [List.take_append_drop, hi]; exact hfirst.before)
      (.inr ⟨t, by rw [List.take_append_drop, hi]; exact hfirst.at_⟩)
    rw [List.take_append_drop] at hread
    have hstarts := hfirst.at_.2
    rw [hfirst.at_.drop_eq] at hstarts
    rw [ofChars_of_first hfirst, ih, hread, hfirst.at_.drop_eq, hstarts.readAll_eq]

end Verdict.Rule.Token
