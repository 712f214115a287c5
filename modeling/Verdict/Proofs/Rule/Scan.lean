import Verdict.Proofs.Rule.Delimiter
/-
The scan cuts a text at its delimiters.

The scan sees one character after the other and has to know where it stands: the
character before, whether a quote is open, how much of a keyword is still to be skipped.
`scan_eq_cut` shows that what it knows is what the text in front of it says, so that its
tokens are those of a cut that looks at the whole text at once (`Token.cut`).
-/
namespace Verdict.Rule.Token

open Text

/-- The condition in a stretch of text, if it is not blank. -/
def ofStretch (cs : List Char) : List Token :=
  if Blank cs then [] else [operand (.ofList (trim cs))]

/-- The tokens of `cs` from `start` on, when it is cut at the delimiters `ds`. -/
def cut (cs : List Char) (start : Nat) : List (Nat × Token) → List Token
  | [] => ofStretch (cs.drop start)
  | (i, t) :: ds => ofStretch ((cs.take i).drop start) ++ t :: cut cs (i + t.written.length) ds

/-- The delimiters of `cs` from `start` on, in the order of their positions. -/
structure DelimitersFrom (cs : List Char) (start : Nat) (ds : List (Nat × Token)) : Prop where
  mem_iff : ∀ i t, (i, t) ∈ ds ↔ start ≤ i ∧ DelimiterAt cs i t
  ordered : ds.Pairwise fun d e => d.1 + d.2.written.length ≤ e.1

/-- The tokens `ts`, with gaps between them, make up the text `cs`. -/
inductive Spelled : List Token → List Char → Prop
  | nil {gap : List Char} : Blank gap → Spelled [] gap
  | cons {gap rest : List Char} {t : Token} {ts : List Token} :
      Blank gap → Spelled ts rest → Spelled (t :: ts) (gap ++ t.written ++ rest)

lemma close_eq (stretch : List Char) (done : List Token) :
    close stretch done = (ofStretch stretch.reverse).reverse ++ done := by
  rw [close, ofStretch]
  split
  · rename_i h
    rw [if_pos (trim_eq_nil_iff.mp h)]
    rfl
  · rename_i h
    rw [if_neg fun hblank => h (trim_eq_nil_iff.mpr hblank)]
    rfl

/-- A quote is open behind `cs`. -/
def openQuote (cs : List Char) : Bool := cs.count '\'' % 2 = 1

lemma openQuote_concat (cs : List Char) (c : Char) :
    openQuote (cs ++ [c]) = (openQuote cs != (c == '\'')) := by
  by_cases hc : c = '\''
  · subst hc
    simp only [openQuote, List.count_append, List.count_singleton_self]
    rcases Nat.mod_two_eq_zero_or_one (cs.count '\'') with h | h <;> simp [h, Nat.add_mod]
  · simp [openQuote, List.count_append, hc, beq_eq_false_iff_ne.mpr hc]

lemma openQuote_concat_of_ne (cs : List Char) {c : Char} (hc : c ≠ '\'') :
    openQuote (cs ++ [c]) = openQuote cs := by
  simp [openQuote_concat, beq_eq_false_iff_ne.mpr hc]

lemma delimiterAt_behind_iff {pre cs : List Char} {t : Token} :
    DelimiterAt (pre ++ cs) pre.length t ↔
      openQuote pre = false ∧ Starts pre.getLast? cs t := by
  rw [DelimiterAt, List.take_left, List.drop_left, openQuote, decide_eq_false_iff_not]
  exact and_congr_left' Nat.mod_two_ne_one.symm

/-- The decision of the scan between `pre` and `cs`. -/
lemma delimiterAt_length_iff {pre cs : List Char} {t : Token} {width : Nat} :
    (if openQuote pre then none else delimiter? pre.getLast? cs) = some (t, width) ↔
      DelimiterAt (pre ++ cs) pre.length t ∧ t.written.length = width + 1 := by
  rw [delimiterAt_behind_iff]
  by_cases hopen : openQuote pre = true
  · simp [hopen]
  · rw [if_neg hopen, delimiter?_eq_some_iff, and_iff_right (Bool.eq_false_iff.mpr hopen)]

/-- Behind the first character of a delimiter, the others are left, and no quote is open. -/
lemma DelimiterAt.behind_first {pre cs : List Char} {c : Char} {t : Token} {width : Nat}
    (h : DelimiterAt (pre ++ c :: cs) pre.length t) (hwidth : t.written.length = width + 1) :
    width ≤ cs.length ∧ '\'' ∉ cs.take width ∧ openQuote (pre ++ [c]) = false := by
  obtain ⟨rest, hrest⟩ := h.2.exists_append
  rw [List.drop_left] at hrest
  have hlength := h.le_length
  rw [List.length_append, List.length_cons] at hlength
  have hwritten : t.written = c :: cs.take width := by
    rw [← List.take_succ_cons, hrest, ← hwidth, List.take_left]
  have hquote : '\'' ∉ c :: cs.take width := hwritten ▸ h.2.quote_not_mem
  refine ⟨by omega, fun hmem => hquote (List.mem_cons_of_mem c hmem), ?_⟩
  rw [openQuote_concat_of_ne pre fun hc => hquote (by simp [hc])]
  exact (delimiterAt_behind_iff.mp h).1

/-- Without a delimiter at its start, the delimiters of the rest are those of the text. -/
lemma DelimitersFrom.of_succ {cs : List Char} {start : Nat} {ds : List (Nat × Token)}
    (h : DelimitersFrom cs (start + 1) ds) (hstart : ∀ t, ¬ DelimiterAt cs start t) :
    DelimitersFrom cs start ds := by
  refine ⟨fun i t => ?_, h.ordered⟩
  rw [h.mem_iff]
  constructor
  · rintro ⟨hle, hd⟩
    exact ⟨by omega, hd⟩
  · rintro ⟨hle, hd⟩
    rcases Nat.lt_or_eq_of_le hle with hlt | rfl
    · exact ⟨hlt, hd⟩
    · exact absurd hd (hstart t)

lemma DelimitersFrom.cons {cs : List Char} {start : Nat} {t : Token} {ds : List (Nat × Token)}
    (h : DelimitersFrom cs (start + t.written.length) ds) (hstart : DelimiterAt cs start t) :
    DelimitersFrom cs start ((start, t) :: ds) := by
  refine ⟨fun i u => ?_, List.pairwise_cons.mpr ⟨?_, h.ordered⟩⟩
  · rw [List.mem_cons, h.mem_iff, Prod.mk.injEq]
    constructor
    · rintro (⟨rfl, rfl⟩ | ⟨hle, hd⟩)
      · exact ⟨le_rfl, hstart⟩
      · exact ⟨by omega, hd⟩
    · rintro ⟨hle, hd⟩
      rcases Nat.lt_or_eq_of_le hle with hlt | rfl
      · exact Or.inr ⟨hstart.le_of_lt hd hlt, hd⟩
      · exact Or.inl ⟨rfl, hd.2.unique hstart.2⟩
  · rintro ⟨i, u⟩ hmem
    exact ((h.mem_iff i u).mp hmem).1

/-- The tokens that the scan finds in `cs` are those of the cut, when it remembers of the
text `pre` before `cs` what is true of it.  The induction is on `cs`; at every moment
`stretch` and what follows the delimiter just read make up the text from `start` on. -/
lemma scan_eq_cut (cs pre : List Char) (skip start : Nat) (stretch : List Char)
    (done : List Token) (hskip : skip ≤ cs.length) (hquote : '\'' ∉ cs.take skip)
    (hstart : start + stretch.length = pre.length + skip)
    (hstretch : (pre ++ cs).drop start = stretch.reverse ++ cs.drop skip) :
    ∃ ds, DelimitersFrom (pre ++ cs) (pre.length + skip) ds ∧
      scan skip pre.getLast? (openQuote pre) stretch done cs =
        done.reverse ++ cut (pre ++ cs) start ds := by
  induction cs generalizing pre skip start stretch done with
  | nil =>
    obtain rfl : skip = 0 := by simpa using hskip
    refine ⟨[], ⟨fun i t => ?_, List.Pairwise.nil⟩, ?_⟩
    · simp only [List.not_mem_nil, false_iff, not_and]
      intro hle hd
      have hlt := hd.lt_length
      simp only [List.append_nil] at hlt
      omega
    · rw [scan, cut, hstretch, close_eq]
      simp
  | cons c cs ih =>
    have hpre : pre ++ c :: cs = (pre ++ [c]) ++ cs := by simp
    have hlast : (pre ++ [c]).getLast? = some c := by simp
    have hlen : (pre ++ [c]).length = pre.length + 1 := by simp
    cases skip with
    | succ skip =>
      -- `c` belongs to the delimiter that was found before
      have hc : c ≠ '\'' := by
        rintro rfl
        simp at hquote
      obtain ⟨ds, hds, hscan⟩ := ih (pre ++ [c]) skip start stretch done
        (by simpa using hskip) (fun h => hquote (by simp [h])) (by rw [hlen]; omega)
        (by rw [← hpre, hstretch]; simp)
      refine ⟨ds, by rwa [hpre, show pre.length + (skip + 1) = (pre ++ [c]).length + skip by
        rw [hlen]; omega], ?_⟩
      rw [hpre, ← hscan, hlast, openQuote_concat_of_ne pre hc, scan]
    | zero =>
      rw [scan]
      cases hdecision : if openQuote pre then none else delimiter? pre.getLast? (c :: cs) with
      | none =>
        -- the stretch goes on
        have hnone : ∀ t, ¬ DelimiterAt (pre ++ c :: cs) pre.length t := by
          intro t hd
          have hsome := delimiterAt_length_iff.mpr
            ⟨hd, (Nat.sub_add_cancel hd.2.length_pos).symm⟩
          simp [hdecision] at hsome
        obtain ⟨ds, hds, hscan⟩ := ih (pre ++ [c]) 0 start (c :: stretch) done
          (Nat.zero_le _) (by simp) (by rw [hlen, List.length_cons]; omega)
          (by rw [← hpre, hstretch]; simp)
        refine ⟨ds, DelimitersFrom.of_succ ?_ hnone, ?_⟩
        · rwa [hpre, show pre.length + 0 + 1 = (pre ++ [c]).length + 0 by rw [hlen]]
        · rw [hpre, ← hscan, hlast, openQuote_concat]
      | some found =>
        -- the stretch ends, and the next one starts behind the delimiter
        obtain ⟨t, width⟩ := found
        obtain ⟨hd, hwidth⟩ := delimiterAt_length_iff.mp hdecision
        obtain ⟨hwidth_le, hquote', hopen⟩ := hd.behind_first hwidth
        have hstretch' : pre.drop start = stretch.reverse := by
          rw [List.drop_append_of_le_length (by omega)] at hstretch
          exact List.append_cancel_right hstretch
        obtain ⟨ds, hds, hscan⟩ := ih (pre ++ [c]) width (pre.length + t.written.length) []
          (t :: close stretch done) hwidth_le hquote'
          (by rw [hlen, hwidth, List.length_nil]; omega)
          (by rw [← hpre, List.drop_length_add_append, hwidth]; rfl)
        refine ⟨(pre.length, t) :: ds, DelimitersFrom.cons ?_ hd, ?_⟩
        · rwa [hpre, show pre.length + 0 + t.written.length = (pre ++ [c]).length + width by
            rw [hlen, hwidth]; omega]
        · rw [hopen, hlast, ← hpre, close_eq] at hscan
          rw [cut, List.take_left, hstretch']
          change scan width (some c) false [] (t :: close stretch done) cs = _
          rw [close_eq, hscan]
          simp

/-- The tokens of a text, given by its characters. -/
def ofChars (cs : List Char) : List Token := scan 0 none false [] [] cs

lemma ofText_eq_ofChars (text : String) : ofText text = ofChars text.toList := rfl

lemma exists_ofChars_eq_cut (cs : List Char) :
    ∃ ds, DelimitersFrom cs 0 ds ∧ ofChars cs = cut cs 0 ds := by
  obtain ⟨ds, hds, hscan⟩ := scan_eq_cut cs [] 0 0 [] [] (Nat.zero_le _) (by simp) rfl
    (by simp)
  exact ⟨ds, hds, hscan⟩

/-! ## Nothing but blanks is lost -/

lemma DelimitersFrom.tail {cs : List Char} {start i : Nat} {t : Token} {ds : List (Nat × Token)}
    (h : DelimitersFrom cs start ((i, t) :: ds)) : DelimitersFrom cs (i + t.written.length) ds := by
  obtain ⟨hhead, hordered⟩ := List.pairwise_cons.mp h.ordered
  refine ⟨fun j u => ⟨fun hmem => ?_, fun hmem => ?_⟩, hordered⟩
  · exact ⟨hhead (j, u) hmem, ((h.mem_iff j u).mp (List.mem_cons_of_mem _ hmem)).2⟩
  · obtain ⟨hle, hd⟩ := hmem
    have hi := (h.mem_iff i t).mp List.mem_cons_self
    have hpos := hi.2.2.length_pos
    rcases List.mem_cons.mp ((h.mem_iff j u).mpr ⟨by omega, hd⟩) with heq | hmem
    · rw [Prod.mk.injEq] at heq
      omega
    · exact hmem

lemma Spelled.gap_append {gap cs : List Char} {ts : List Token} (hgap : Blank gap)
    (h : Spelled ts cs) : Spelled ts (gap ++ cs) := by
  cases h with
  | nil hgap' => exact .nil (hgap.append hgap')
  | @cons gap' rest t ts hgap' hrest =>
    have hcons := Spelled.cons (t := t) (hgap.append hgap') hrest
    simpa only [List.append_assoc] using hcons

/-- A stretch is spelled by its condition in front of whatever else is spelled. -/
lemma Spelled.ofStretch_append (stretch : List Char) {cs : List Char} {ts : List Token}
    (h : Spelled ts cs) :
    Spelled (ofStretch stretch ++ ts) (stretch ++ cs) := by
  rw [ofStretch]
  split
  · rename_i hblank
    exact h.gap_append hblank
  · obtain ⟨a, b, ha, hb, hstretch⟩ := exists_gaps stretch
    have hcons := Spelled.cons (t := operand (.ofList (trim stretch))) ha (h.gap_append hb)
    conv => arg 2; rw [hstretch]
    simpa [written] using hcons

lemma spelled_cut {cs : List Char} {start : Nat} {ds : List (Nat × Token)}
    (h : DelimitersFrom cs start ds) : Spelled (cut cs start ds) (cs.drop start) := by
  induction ds generalizing start with
  | nil =>
    have hlast := Spelled.ofStretch_append (cs.drop start) (.nil blank_nil)
    simpa only [cut, List.append_nil] using hlast
  | cons d ds ih =>
    obtain ⟨i, t⟩ := d
    obtain ⟨hle, hd⟩ := (h.mem_iff i t).mp List.mem_cons_self
    have hstretch : cs.drop start =
        (cs.take i).drop start ++ (t.written ++ cs.drop (i + t.written.length)) := by
      rw [← hd.drop_eq, ← List.drop_append_of_le_length, List.take_append_drop]
      rw [List.length_take]
      have hlt := hd.lt_length
      omega
    have hcons := Spelled.cons (t := t) blank_nil (ih h.tail)
    rw [List.nil_append] at hcons
    rw [cut, hstretch]
    exact hcons.ofStretch_append _

/-- **Tokens are cut at the delimiters.**  The delimiters of a text, in the order of their
positions, do not overlap; the tokens are these delimiters with the condition of each
stretch between them that is not blank; and the whole text is spelled by its tokens and
blanks. -/
theorem ofText_cuts_at_delimiters (text : String) :
    ∃ ds : List (Nat × Token),
      (∀ i t, (i, t) ∈ ds ↔ DelimiterAt text.toList i t) ∧
      (ds.Pairwise fun d e => d.1 + d.2.written.length ≤ e.1) ∧
      ofText text = cut text.toList 0 ds ∧
      Spelled (ofText text) text.toList := by
  obtain ⟨ds, hds, hcut⟩ := exists_ofChars_eq_cut text.toList
  refine ⟨ds, fun i t => ?_, hds.ordered, hcut, ?_⟩
  · rw [hds.mem_iff]
    exact and_iff_right (Nat.zero_le i)
  · rw [ofText_eq_ofChars, hcut]
    exact spelled_cut hds

end Verdict.Rule.Token
