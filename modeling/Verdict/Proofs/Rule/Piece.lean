import Mathlib.Data.List.Nodup
import Mathlib.Data.List.Perm.Basic
import Mathlib.Data.Nat.Find
import Verdict.Proofs.Rule.Assembly
import Verdict.Proofs.Rule.Scan
/-
Tokens, one piece at a time.

A text without delimiters is one stretch (`ofChars_of_quiet`); any other is a stretch, its
first delimiter, and a text whose tokens are found without looking back
(`ofChars_of_first`).  By induction over these pieces (`pieces_induction`):

* a condition that was cut out of a text is a single token when it stands alone
  (`ofText_of_mem_operands`);
* a delimiter between two texts, of which the first closes its quotes, separates their
  tokens (`ofChars_append_delimiter`);
* a condition that does not close its last quote absorbs what follows it
  (`ofText_absorbs`).
-/
namespace Verdict.Rule.Token

open Text

/-- No delimiter starts anywhere in `cs`. -/
def Quiet (cs : List Char) : Prop := ∀ i t, ¬ DelimiterAt cs i t

/-- The first delimiter of `cs` is `t`, at position `i`. -/
structure FirstAt (cs : List Char) (i : Nat) (t : Token) : Prop where
  at_ : DelimiterAt cs i t
  before : ∀ j u, j < i → ¬ DelimiterAt cs j u

lemma quiet_or_exists_first (cs : List Char) : Quiet cs ∨ ∃ i t, FirstAt cs i t := by
  by_cases h : ∃ i t, DelimiterAt cs i t
  · classical
    obtain ⟨t, ht⟩ := Nat.find_spec h
    refine Or.inr ⟨Nat.find h, t, ht, fun j u hj hd => Nat.find_min h hj ⟨u, hd⟩⟩
  · refine Or.inl fun i t hd => h ⟨i, t, hd⟩

/-! ## The first piece -/

lemma DelimitersFrom.strict {cs : List Char} {start : Nat} {ds : List (Nat × Token)}
    (h : DelimitersFrom cs start ds) : ds.Pairwise fun d e => d.1 < e.1 := by
  refine h.ordered.imp_of_mem fun {d e} hd _ hde => ?_
  have hpos := ((h.mem_iff d.1 d.2).mp hd).2.2.length_pos
  omega

/-- The delimiters of a text are determined. -/
lemma DelimitersFrom.unique {cs : List Char} {start : Nat} {ds es : List (Nat × Token)}
    (hds : DelimitersFrom cs start ds) (hes : DelimitersFrom cs start es) : ds = es := by
  have hmem : ∀ d, d ∈ ds ↔ d ∈ es := by
    rintro ⟨i, t⟩
    rw [hds.mem_iff, hes.mem_iff]
  have hnodup : ∀ {ds}, DelimitersFrom cs start ds → ds.Nodup := by
    intro ds h
    exact h.strict.imp fun {d e} hde heq => by simp [heq] at hde
  have hperm := (List.perm_ext_iff_of_nodup (hnodup hds) (hnodup hes)).mpr hmem
  exact hperm.eq_of_pairwise (fun d e _ _ hde hed => by omega) hds.strict hes.strict

/-- The character in front of a text only matters to a keyword that it touches. -/
lemma scan_of_edge {before : Option Char} {cs : List Char}
    (hseam : isWordEdge before = true ∨ isWordEdge cs.head? = true) :
    scan 0 before false [] [] cs = ofChars cs := by
  have hdecision : delimiter? before cs = delimiter? none cs := by
    ext ⟨t, width⟩
    rw [delimiter?_eq_some_iff, delimiter?_eq_some_iff, starts_of_edge hseam]
  cases cs with
  | nil => rfl
  | cons c cs =>
    rw [ofChars, scan, scan]
    simp only [Bool.false_eq_true, if_false, hdecision]

/-- Where no quote is open and no word is cut, the tokens that follow are those of the
text that follows. -/
lemma cut_eq_ofChars {cs : List Char} {start : Nat} {ds : List (Nat × Token)}
    (h : DelimitersFrom cs start ds) (hle : start ≤ cs.length)
    (hquotes : (cs.take start).count '\'' % 2 = 0)
    (hseam : isWordEdge (cs.take start).getLast? = true ∨
      isWordEdge (cs.drop start).head? = true) :
    cut cs start ds = ofChars (cs.drop start) := by
  have hlen : (cs.take start).length = start := by rw [List.length_take]; omega
  obtain ⟨es, hes, hscan⟩ := scan_eq_cut (cs.drop start) (cs.take start) 0 start [] []
    (Nat.zero_le _) (by simp) (by simp [hlen])
    (by rw [List.take_append_drop]; rfl)
  rw [List.take_append_drop] at hscan hes
  rw [hlen, Nat.add_zero] at hes
  have hclosed : openQuote (cs.take start) = false := by simp [openQuote, hquotes]
  rw [hclosed, scan_of_edge hseam, List.reverse_nil, List.nil_append, ← h.unique hes] at hscan
  exact hscan.symm

/-- A text without delimiters is one stretch. -/
lemma ofChars_of_quiet {cs : List Char} (h : Quiet cs) : ofChars cs = ofStretch cs := by
  obtain ⟨ds, hds, hcut⟩ := exists_ofChars_eq_cut cs
  cases ds with
  | nil => exact hcut
  | cons d ds => exact absurd ((hds.mem_iff d.1 d.2).mp List.mem_cons_self).2 (h d.1 d.2)

/-- A text is a stretch, its first delimiter and the tokens of the text behind it. -/
lemma ofChars_of_first {cs : List Char} {i : Nat} {t : Token} (h : FirstAt cs i t) :
    ofChars cs = ofStretch (cs.take i) ++ t :: ofChars (cs.drop (i + t.written.length)) := by
  obtain ⟨ds, hds, hcut⟩ := exists_ofChars_eq_cut cs
  have hmem := (hds.mem_iff i t).mpr ⟨Nat.zero_le i, h.at_⟩
  cases ds with
  | nil => simp at hmem
  | cons d ds =>
    obtain ⟨j, u⟩ := d
    have hu := ((hds.mem_iff j u).mp List.mem_cons_self).2
    have hij : i ≤ j := Nat.le_of_not_lt fun hlt => h.before j u hlt hu
    -- the first of the list is the first of the text
    obtain ⟨rfl, rfl⟩ : i = j ∧ t = u := by
      rcases List.mem_cons.mp hmem with heq | hmem
      · exact Prod.mk.injEq .. ▸ heq
      · have hji := List.rel_of_pairwise_cons hds.strict hmem
        omega
    have htake : cs.take (i + t.written.length) = cs.take i ++ t.written := by
      rw [List.take_add, h.at_.drop_eq, List.take_left]
    have hstarts := h.at_.2
    rw [h.at_.drop_eq] at hstarts
    rw [hcut, cut, List.drop_zero, cut_eq_ofChars hds.tail h.at_.le_length h.at_.quotes_behind]
    rw [htake, List.getLast?_append_of_ne_nil _
      (List.length_pos_iff.mp hstarts.length_pos)]
    exact hstarts.edge_behind

/-- Induction over the pieces of a text. -/
lemma pieces_induction {P : List Char → Prop} (hquiet : ∀ cs, Quiet cs → P cs)
    (hfirst : ∀ cs i t, FirstAt cs i t → P (cs.drop (i + t.written.length)) → P cs)
    (cs : List Char) : P cs := by
  induction hn : cs.length using Nat.strong_induction_on generalizing cs with
  | _ n ih =>
    rcases quiet_or_exists_first cs with h | ⟨i, t, h⟩
    · exact hquiet cs h
    · have hpos := h.at_.2.length_pos
      have hlt := h.at_.lt_length
      exact hfirst cs i t h (ih _ (by rw [List.length_drop]; omega) _ rfl)

/-! ## Gaps and seams -/

lemma isWordEdge_getLast?_of_blank {gap : List Char} (hgap : Blank gap) :
    isWordEdge gap.getLast? = true := by
  cases hlast : gap.getLast? with
  | none => rfl
  | some c =>
    have hblank := hgap c (List.mem_of_getLast? hlast)
    rw [isWordEdge_some, isWordChar_eq_false_of_isBlank hblank]
    rfl

lemma isWordEdge_head?_of_blank {gap : List Char} (hgap : Blank gap) :
    isWordEdge gap.head? = true := by
  cases hhead : gap.head? with
  | none => rfl
  | some c =>
    have hblank := hgap c (List.mem_of_mem_head? hhead)
    rw [isWordEdge_some, isWordChar_eq_false_of_isBlank hblank]
    rfl

lemma count_quote_of_blank {gap : List Char} (hgap : Blank gap) : gap.count '\'' = 0 := by
  refine List.count_eq_zero.mpr fun hmem => ?_
  have hblank := hgap _ hmem
  revert hblank
  decide

lemma Starts.isBlank_eq_false {before : Option Char} {c : Char} {cs : List Char} {t : Token}
    (h : Starts before (c :: cs) t) : isBlank c = false := by
  rcases h.head with rfl | rfl | hword
  · decide
  · decide
  · exact isBlank_eq_false_of_isWordChar hword

/-- No delimiter starts in a gap. -/
lemma not_delimiterAt_of_blank (pre post : List Char) {gap : List Char} (hgap : Blank gap) {j : Nat}
    (hle : pre.length ≤ j) (hlt : j < pre.length + gap.length) (t : Token) :
    ¬ DelimiterAt (pre ++ gap ++ post) j t := by
  intro hd
  obtain ⟨k, rfl⟩ := Nat.exists_eq_add_of_le hle
  have hk : k < gap.length := by omega
  have hstarts := hd.2
  rw [List.append_assoc, List.drop_length_add_append, List.drop_append_of_le_length hk.le,
    List.drop_eq_getElem_cons hk, List.cons_append] at hstarts
  have hblank := hgap _ (List.getElem_mem hk)
  simp [hstarts.isBlank_eq_false] at hblank

/-- In front of a seam where no two word characters meet, a text keeps its delimiters. -/
lemma delimiterAt_append_right {cs post : List Char}
    (hseam : isWordEdge cs.getLast? = true ∨ isWordEdge post.head? = true) {j : Nat}
    (hj : j < cs.length) {t : Token} : DelimiterAt (cs ++ post) j t ↔ DelimiterAt cs j t := by
  simpa using delimiterAt_append [] cs post (by simp) (Or.inl rfl) hseam hj

lemma delimiterAt_gap_append {gap cs : List Char} (hgap : Blank gap) {j : Nat}
    (hj : j < cs.length) {t : Token} :
    DelimiterAt (gap ++ cs) (gap.length + j) t ↔ DelimiterAt cs j t := by
  simpa using delimiterAt_append gap cs [] (by simp [count_quote_of_blank hgap])
    (Or.inl (isWordEdge_getLast?_of_blank hgap)) (Or.inr rfl) hj

lemma Quiet.append_gap {cs gap : List Char} (h : Quiet cs) (hgap : Blank gap) :
    Quiet (cs ++ gap) := by
  intro i t hd
  by_cases hi : i < cs.length
  · exact h i t ((delimiterAt_append_right (Or.inr (isWordEdge_head?_of_blank hgap)) hi).mp hd)
  · have hlt := hd.lt_length
    rw [List.length_append] at hlt
    rw [← List.append_nil (cs ++ gap)] at hd
    exact not_delimiterAt_of_blank cs [] hgap (by omega) hlt t hd

lemma Quiet.gap_append {gap cs : List Char} (hgap : Blank gap) (h : Quiet cs) :
    Quiet (gap ++ cs) := by
  intro i t hd
  by_cases hi : i < gap.length
  · exact not_delimiterAt_of_blank [] cs hgap (Nat.zero_le i) (by simpa using hi) t hd
  · have hlt := hd.lt_length
    rw [List.length_append] at hlt
    rw [show i = gap.length + (i - gap.length) by omega] at hd
    exact h _ t ((delimiterAt_gap_append hgap (by omega)).mp hd)

lemma FirstAt.gap_append {gap cs : List Char} {i : Nat} {t : Token} (hgap : Blank gap)
    (h : FirstAt cs i t) : FirstAt (gap ++ cs) (gap.length + i) t := by
  refine ⟨(delimiterAt_gap_append hgap h.at_.lt_length).mpr h.at_, fun j u hj hd => ?_⟩
  by_cases hlt : j < gap.length
  · exact not_delimiterAt_of_blank [] cs hgap (Nat.zero_le j) (by simpa using hlt) u hd
  · have hilt := h.at_.lt_length
    rw [show j = gap.length + (j - gap.length) by omega] at hd
    exact h.before _ u (by omega) ((delimiterAt_gap_append hgap (by omega)).mp hd)

lemma FirstAt.append {cs post : List Char} {i : Nat} {t : Token} (h : FirstAt cs i t)
    (hseam : isWordEdge cs.getLast? = true ∨ isWordEdge post.head? = true) :
    FirstAt (cs ++ post) i t := by
  have hlt := h.at_.lt_length
  refine ⟨(delimiterAt_append_right hseam hlt).mpr h.at_, fun j u hj hd => ?_⟩
  exact h.before j u hj ((delimiterAt_append_right hseam (by omega)).mp hd)

/-- The stretch in front of the first delimiter has no delimiter. -/
lemma FirstAt.quiet_take {cs : List Char} {i : Nat} {t : Token} (h : FirstAt cs i t) :
    Quiet (cs.take i) := by
  intro j u hd
  have hlt := hd.lt_length
  have hji : j < i := by rw [List.length_take] at hlt; omega
  refine h.before j u hji ?_
  rw [← List.take_append_drop i cs]
  exact (delimiterAt_append_right h.at_.2.edge hlt).mpr hd

lemma blank_append_iff {a b : List Char} : Blank (a ++ b) ↔ Blank a ∧ Blank b := by
  simp only [Blank, List.mem_append, or_imp, forall_and]

lemma ofStretch_append_gap (cs : List Char) {gap : List Char} (hgap : Blank gap) :
    ofStretch (cs ++ gap) = ofStretch cs := by
  have htrim := trim_append_gaps blank_nil hgap cs
  rw [List.nil_append] at htrim
  rw [ofStretch, ofStretch, htrim, if_congr (blank_append_iff.trans (and_iff_left hgap)) rfl rfl]

lemma ofStretch_gap_append {gap : List Char} (hgap : Blank gap) (cs : List Char) :
    ofStretch (gap ++ cs) = ofStretch cs := by
  have htrim := trim_append_gaps hgap blank_nil cs
  rw [List.append_nil] at htrim
  rw [ofStretch, ofStretch, htrim, if_congr (blank_append_iff.trans (and_iff_right hgap)) rfl rfl]

/-- A gap in front of a text does not count. -/
lemma ofChars_gap_append {gap : List Char} (hgap : Blank gap) (cs : List Char) :
    ofChars (gap ++ cs) = ofChars cs := by
  rcases quiet_or_exists_first cs with h | ⟨i, t, h⟩
  · rw [ofChars_of_quiet (h.gap_append hgap), ofChars_of_quiet h, ofStretch_gap_append hgap]
  · rw [ofChars_of_first (h.gap_append hgap), ofChars_of_first h, List.take_length_add_append,
      ofStretch_gap_append hgap, Nat.add_assoc, List.drop_length_add_append]

/-! ## Conditions out of their surroundings -/

lemma Quiet.trim {cs : List Char} (h : Quiet cs) : Quiet (Text.trim cs) := by
  obtain ⟨a, b, ha, hb, hcs⟩ := exists_gaps cs
  intro i t hd
  have hlt := hd.lt_length
  refine h (a.length + i) t ?_
  rw [hcs]
  exact (delimiterAt_append a (Text.trim cs) b (by simp [count_quote_of_blank ha])
    (Or.inl (isWordEdge_getLast?_of_blank ha)) (Or.inr (isWordEdge_head?_of_blank hb)) hlt).mpr hd

/-- The condition of a stretch, written alone, is a single token. -/
lemma ofText_of_mem_ofStretch {cs : List Char} (h : Quiet cs) {text : String}
    (htext : text ∈ operands (ofStretch cs)) : ofText text = [operand text] := by
  rw [ofStretch] at htext
  split at htext
  · simp at htext
  · rename_i hblank
    obtain rfl : text = .ofList (Text.trim cs) := by simpa using htext
    have hblank' : ¬ Blank (Text.trim cs) := by
      rwa [← trim_eq_nil_iff, trim_trim, trim_eq_nil_iff]
    rw [ofText_eq_ofChars, String.toList_ofList, ofChars_of_quiet h.trim, ofStretch, if_neg hblank',
      trim_trim]

lemma Starts.text?_eq {before : Option Char} {cs : List Char} {t : Token} (h : Starts before cs t) :
    t.text? = none := by
  cases t with
  | operand text => exact h.elim
  | _ => rfl

/-- A condition that was cut out of a text is a single token when it stands alone. -/
theorem ofText_of_mem_operands {text condition : String}
    (h : condition ∈ operands (ofText text)) : ofText condition = [operand condition] := by
  rw [ofText_eq_ofChars] at h
  revert h
  induction text.toList using pieces_induction with
  | hquiet cs hquiet =>
    rw [ofChars_of_quiet hquiet]
    exact ofText_of_mem_ofStretch hquiet
  | hfirst cs i t hfirst ih =>
    intro h
    rw [ofChars_of_first hfirst, operands_append, List.mem_append] at h
    rcases h with h | h
    · exact ofText_of_mem_ofStretch hfirst.quiet_take h
    · refine ih ?_
      rwa [operands, List.filterMap_cons_none hfirst.at_.2.text?_eq] at h

/-! ## Texts side by side -/

/-- A delimiter that starts between two gaps, whatever is in front of them, separates the
tokens of the texts on its sides, if the one in front closes its quotes. -/
theorem ofChars_append_delimiter {a b gap gap' : List Char} {t : Token} (hgap : Blank gap)
    (hgap' : Blank gap')
    (hstarts : ∀ before, Starts (gap.getLast?.or before) (t.written ++ (gap' ++ b)) t)
    (hquotes : a.count '\'' % 2 = 0) :
    ofChars (a ++ gap ++ (t.written ++ (gap' ++ b))) = ofChars a ++ t :: ofChars b := by
  induction a using pieces_induction with
  | hquiet a hquiet =>
    have hstarts' : Starts (a ++ gap).getLast? (t.written ++ (gap' ++ b)) t := by
      rw [List.getLast?_append]
      exact hstarts a.getLast?
    have hfirst : FirstAt (a ++ gap ++ (t.written ++ (gap' ++ b))) (a ++ gap).length t := by
      refine ⟨⟨?_, ?_⟩, fun j u hj hd => ?_⟩
      · rw [List.take_left, List.count_append, count_quote_of_blank hgap]
        exact hquotes
      · rwa [List.take_left, List.drop_left]
      · exact hquiet.append_gap hgap j u ((delimiterAt_append_right hstarts'.edge hj).mp hd)
    rw [ofChars_of_first hfirst, List.take_left, List.drop_length_add_append, List.drop_left,
      ofStretch_append_gap a hgap, ofChars_gap_append hgap', ofChars_of_quiet hquiet]
  | hfirst a i u hfirst ih =>
    have hseam : isWordEdge a.getLast? = true ∨
        isWordEdge (gap ++ (t.written ++ (gap' ++ b))).head? = true := by
      by_cases hnil : gap = []
      · subst hnil
        exact (hstarts a.getLast?).edge
      · rw [List.head?_append_of_ne_nil _ hnil]
        exact Or.inr (isWordEdge_head?_of_blank hgap)
    have hquotes' : (a.drop (i + u.written.length)).count '\'' % 2 = 0 := by
      have hsplit := congrArg (List.count '\'') (List.take_append_drop (i + u.written.length) a)
      have hbehind := hfirst.at_.quotes_behind
      rw [List.count_append] at hsplit
      omega
    rw [List.append_assoc, ofChars_of_first (hfirst.append hseam), ofChars_of_first hfirst,
      List.take_append_of_le_length hfirst.at_.lt_length.le,
      List.drop_append_of_le_length hfirst.at_.le_length, ← List.append_assoc, ih hquotes']
    simp

lemma ofChars_opening (b : List Char) : ofChars ('(' :: b) = opening :: ofChars b :=
  ofChars_append_delimiter (a := []) (t := opening) blank_nil blank_nil (fun _ => rfl) rfl

lemma ofChars_closing {a : List Char} (hquotes : a.count '\'' % 2 = 0) (b : List Char) :
    ofChars (a ++ ')' :: b) = ofChars a ++ closing :: ofChars b := by
  simpa [written] using ofChars_append_delimiter (t := closing) (b := b) blank_nil blank_nil
    (fun _ => rfl) hquotes

lemma ofChars_connective {a : List Char} (hquotes : a.count '\'' % 2 = 0) (op : Connective)
    (b : List Char) :
    ofChars (a ++ ' ' :: op.keyword.toList ++ ' ' :: b) =
      ofChars a ++ connective op :: ofChars b := by
  have hspace : Blank [' '] := by decide
  simpa [written] using ofChars_append_delimiter (t := connective op) (b := b) hspace hspace
    (fun _ => ⟨rfl, ' ' :: b, rfl, rfl⟩) hquotes

/-! ## Open quotes -/

lemma quiet_of_ofText {text : String} (h : ofText text = [operand text]) : Quiet text.toList := by
  rcases quiet_or_exists_first text.toList with hquiet | ⟨i, t, hfirst⟩
  · exact hquiet
  · rw [ofText_eq_ofChars, ofChars_of_first hfirst] at h
    have ht : t ∈ [operand text] := h ▸ List.mem_append_right _ List.mem_cons_self
    obtain rfl := List.mem_singleton.mp ht
    exact hfirst.at_.2.elim

lemma trimmed_of_ofText {text : String} (h : ofText text = [operand text]) :
    Trimmed text.toList ∧ ¬ Blank text.toList := by
  rw [ofText_eq_ofChars, ofChars_of_quiet (quiet_of_ofText h), ofStretch] at h
  split at h
  · simp at h
  · rename_i hblank
    refine ⟨?_, hblank⟩
    have htext : String.ofList (Text.trim text.toList) = text := by simpa using h
    rw [← htext, String.toList_ofList]
    exact trimmed_trim _

/-- Trimming a text does not lead back to its beginning, if anything else is behind it. -/
lemma trim_append_ne {a : List Char} (gap more : List Char) {c : Char} (ha : Trimmed a)
    (hne : a ≠ []) (hc : isBlank c = false) : Text.trim (a ++ (gap ++ c :: more)) ≠ a := by
  intro h
  obtain ⟨g, g', hg, hg', hsplit⟩ := exists_gaps (a ++ (gap ++ c :: more))
  rw [h] at hsplit
  cases g with
  | nil =>
    rw [List.nil_append] at hsplit
    have hblank := hg' c (List.append_cancel_left hsplit ▸ by simp)
    simp [hc] at hblank
  | cons d g =>
    obtain ⟨e, a', rfl⟩ := List.exists_cons_of_ne_nil hne
    have hde : e = d := (List.cons.inj hsplit).1
    have hblank := hg d List.mem_cons_self
    rw [← hde, ha.head e rfl] at hblank
    simp at hblank

/-- Where a quote is open, no delimiter starts in the gap that follows, nor right behind it. -/
lemma DelimiterAt.lt_of_open {cs gap post : List Char} (hquiet : Quiet cs)
    (hopen : cs.count '\'' % 2 = 1) (hgap : Blank gap)
    (hseam : isWordEdge (gap ++ post).head? = true) {j : Nat} {t : Token}
    (h : DelimiterAt (cs ++ (gap ++ post)) j t) : cs.length + gap.length < j := by
  by_contra hle
  by_cases hj : j < cs.length
  · exact hquiet j t ((delimiterAt_append_right (Or.inr hseam) hj).mp h)
  · have hquotes := h.1
    rw [List.take_append, List.take_of_length_le (by omega), List.count_append,
      List.take_append_of_le_length (by omega)] at hquotes
    have hgap' : (gap.take (j - cs.length)).count '\'' = 0 :=
      count_quote_of_blank fun d hd => hgap d (List.mem_of_mem_take hd)
    omega

/-- A stretch that goes on behind a condition is another condition. -/
lemma exists_ofStretch_append {text : String} (htext : ofText text = [operand text])
    (gap more : List Char) {c : Char} (hc : isBlank c = false) :
    ∃ text', ofStretch (text.toList ++ (gap ++ c :: more)) = [operand text'] ∧ text' ≠ text := by
  obtain ⟨htrimmed, hblank⟩ := trimmed_of_ofText htext
  refine ⟨.ofList (Text.trim (text.toList ++ (gap ++ c :: more))), ?_, fun heq => ?_⟩
  · rw [ofStretch, if_neg]
    exact fun h => hblank (blank_append_iff.mp h).1
  · have hne : text.toList ≠ [] := by
      intro hnil
      rw [hnil] at hblank
      exact hblank blank_nil
    refine trim_append_ne gap more htrimmed hne hc ?_
    conv_rhs => rw [← heq]
    exact (String.toList_ofList).symm

/-- A condition that leaves a quote open absorbs what follows it. -/
theorem ofText_absorbs {text : String} {post : List Char} (htext : ofText text = [operand text])
    (hopen : text.toList.count '\'' % 2 = 1) (hpost : ¬ Blank post)
    (hseam : isWordEdge post.head? = true) :
    ∃ text' ts, ofChars (text.toList ++ post) = operand text' :: ts ∧ text' ≠ text := by
  obtain ⟨gap, c, rest, hgap, hc, rfl⟩ := exists_gap_of_not_blank hpost
  rcases quiet_or_exists_first (text.toList ++ (gap ++ c :: rest)) with hquiet | ⟨i, t, hfirst⟩
  · obtain ⟨text', heq, hne⟩ := exists_ofStretch_append htext gap rest hc
    exact ⟨text', [], by rw [ofChars_of_quiet hquiet, heq], hne⟩
  · -- the first stretch reaches beyond `c`
    have hlt := hfirst.at_.lt_of_open (quiet_of_ofText htext) hopen hgap hseam
    obtain ⟨k, rfl⟩ := Nat.exists_eq_add_of_lt hlt
    have htake : (text.toList ++ (gap ++ c :: rest)).take
          (text.toList.length + gap.length + k + 1) =
        text.toList ++ (gap ++ c :: rest.take k) := by
      rw [show text.toList.length + gap.length + k + 1 = text.toList.length + (gap.length + (k + 1))
        by omega, List.take_length_add_append, List.take_length_add_append, List.take_succ_cons]
    obtain ⟨text', heq, hne⟩ := exists_ofStretch_append htext gap (rest.take k) hc
    rw [ofChars_of_first hfirst, htake, heq]
    exact ⟨text', _, rfl, hne⟩

end Verdict.Rule.Token
