import Mathlib.Data.List.Basic
import Verdict.Proofs.Text
import Verdict.Rule.Token
/-
Delimiters, as positions in a whole text.

`Token.scan` decides at each character with what it remembers of the text before it.
Here the same decision is a property of a position in the whole text
(`Token.DelimiterAt`): the number of quotes before it is even, and what starts there is a
parenthesis or a keyword that no word character touches.

A position keeps this property when text is put in front of the text or behind it, unless
two word characters meet at the seam or a quote is open there
(`Token.delimiterAt_append`).  That is why a stretch of text can be cut out of its
surroundings and put into others.
-/
namespace Verdict.Rule.Token

open Text

/-- How a token is written. -/
def written : Token → List Char
  | opening => ['(']
  | closing => [')']
  | connective op => op.keyword.toList
  | operand text => text.toList

/-- `cs` starts with the delimiter `t`, and `before` is the character in front of `cs`. -/
def Starts (before : Option Char) (cs : List Char) : Token → Prop
  | opening => cs.head? = some '('
  | closing => cs.head? = some ')'
  | connective op =>
    isWordEdge before = true ∧
      ∃ rest, cs = op.keyword.toList ++ rest ∧ isWordEdge rest.head? = true
  | operand _ => False

/-- The delimiter `t` starts at position `i` of `cs`. -/
def DelimiterAt (cs : List Char) (i : Nat) (t : Token) : Prop :=
  (cs.take i).count '\'' % 2 = 0 ∧ Starts (cs.take i).getLast? (cs.drop i) t

/-! ## Word characters and keywords -/

@[simp] lemma isWordEdge_none : isWordEdge none = true := rfl

@[simp] lemma isWordEdge_some (c : Char) : isWordEdge (some c) = !isWordChar c := rfl

lemma isWordChar_of_mem_keyword (op : Connective) {c : Char} (h : c ∈ op.keyword.toList) :
    isWordChar c = true := by
  have hall : op.keyword.toList.all isWordChar = true := by cases op <;> decide
  exact List.all_eq_true.mp hall c h

lemma keyword_ne_nil (op : Connective) : op.keyword.toList ≠ [] := by
  cases op <;> decide

/-- A keyword, cut in two, has word characters on both sides of the cut. -/
lemma isWordEdge_of_keyword_cut {op : Connective} {a b : List Char}
    (h : op.keyword.toList = a ++ b) (ha : a ≠ []) (hb : b ≠ []) :
    isWordEdge a.getLast? = false ∧ isWordEdge b.head? = false := by
  constructor
  · rw [List.getLast?_eq_some_getLast ha, isWordEdge_some, Bool.not_eq_false']
    exact isWordChar_of_mem_keyword op (h ▸ List.mem_append_left b (List.getLast_mem ha))
  · rw [List.head?_eq_some_head hb, isWordEdge_some, Bool.not_eq_false']
    exact isWordChar_of_mem_keyword op (h ▸ List.mem_append_right a (List.head_mem hb))

lemma isKeywordAt_iff {before : Option Char} {cs : List Char} {op : Connective} :
    isKeywordAt before cs op = true ↔ Starts before cs (connective op) := by
  simp only [isKeywordAt, Bool.and_eq_true, Option.any_eq_true, afterWord?_eq_some_iff, Starts]

/-- What `delimiter?` finds is the delimiter that the text starts with. -/
lemma delimiter?_eq_some_iff {before : Option Char} {cs : List Char} {t : Token} {width : Nat} :
    delimiter? before cs = some (t, width) ↔ Starts before cs t ∧ t.written.length = width + 1 := by
  constructor
  · intro h
    simp only [delimiter?] at h
    split at h
    · rename_i hhead
      simp only [Option.some.injEq, Prod.mk.injEq] at h
      obtain ⟨rfl, rfl⟩ := h
      exact ⟨hhead, rfl⟩
    · rename_i hhead
      simp only [Option.some.injEq, Prod.mk.injEq] at h
      obtain ⟨rfl, rfl⟩ := h
      exact ⟨hhead, rfl⟩
    · simp only [Option.map_eq_some_iff, Prod.mk.injEq] at h
      obtain ⟨op, hop, rfl, rfl⟩ := h
      refine ⟨isKeywordAt_iff.mp (List.find?_some hop), ?_⟩
      cases op <;> rfl
  · rintro ⟨h, hwidth⟩
    cases t with
    | opening =>
      obtain rfl : width = 0 := by simpa [written] using hwidth.symm
      simp only [delimiter?, show cs.head? = some '(' from h]
    | closing =>
      obtain rfl : width = 0 := by simpa [written] using hwidth.symm
      simp only [delimiter?, show cs.head? = some ')' from h]
    | operand text => exact h.elim
    | connective op =>
      have hop := isKeywordAt_iff.mpr h
      obtain ⟨-, rest, rfl, -⟩ := h
      cases op with
      | and =>
        obtain rfl : width = 2 := by simpa [written, Connective.keyword] using hwidth.symm
        simp only [delimiter?, List.find?, hop]
        rfl
      | or =>
        obtain rfl : width = 1 := by simpa [written, Connective.keyword] using hwidth.symm
        have hand : isKeywordAt before (Connective.or.keyword.toList ++ rest) .and = false := by
          simp [isKeywordAt, afterWord?, Connective.keyword]
        simp only [delimiter?, List.find?, hop, hand]
        rfl

variable {before : Option Char} {cs : List Char} {t u : Token}

lemma Starts.exists_append (h : Starts before cs t) : ∃ rest, cs = t.written ++ rest := by
  cases t with
  | opening => exact ⟨cs.tail, (List.cons_head?_tail h).symm⟩
  | closing => exact ⟨cs.tail, (List.cons_head?_tail h).symm⟩
  | connective op =>
    obtain ⟨-, rest, hrest, -⟩ := h
    exact ⟨rest, hrest⟩
  | operand text => exact h.elim

lemma Starts.length_pos (h : Starts before cs t) : 0 < t.written.length := by
  cases t with
  | opening => decide
  | closing => decide
  | connective op => exact List.length_pos_iff.mpr (keyword_ne_nil op)
  | operand text => exact h.elim

/-- The first character of a delimiter. -/
lemma Starts.head_mem {c : Char} (h : Starts before (c :: cs) t) : c ∈ t.written := by
  obtain ⟨rest, hrest⟩ := h.exists_append
  obtain ⟨d, ds, hwritten⟩ := List.exists_cons_of_length_pos h.length_pos
  rw [hwritten, List.cons_append] at hrest
  rw [hwritten, (List.cons.inj hrest).1]
  exact List.mem_cons_self

/-- A delimiter starts with a parenthesis or a word character. -/
lemma Starts.head {c : Char} (h : Starts before (c :: cs) t) :
    c = '(' ∨ c = ')' ∨ isWordChar c = true := by
  cases t with
  | opening => exact .inl (List.mem_singleton.mp h.head_mem)
  | closing => exact .inr (.inl (List.mem_singleton.mp h.head_mem))
  | operand text => exact h.elim
  | connective op => exact .inr (.inr (isWordChar_of_mem_keyword op h.head_mem))

lemma Starts.delimiter?_eq (h : Starts before cs t) :
    delimiter? before cs = some (t, t.written.length - 1) :=
  delimiter?_eq_some_iff.mpr ⟨h, (Nat.sub_add_cancel h.length_pos).symm⟩

lemma Starts.unique (ht : Starts before cs t) (hu : Starts before cs u) : t = u := by
  have hsame := ht.delimiter?_eq.symm.trans hu.delimiter?_eq
  simp only [Option.some.injEq, Prod.mk.injEq] at hsame
  exact hsame.1

lemma Starts.quote_not_mem (h : Starts before cs t) : '\'' ∉ t.written := by
  cases t with
  | opening => decide
  | closing => decide
  | connective op => cases op <;> decide
  | operand text => exact h.elim

/-! ## Surroundings -/

/-- No delimiter starts between two word characters. -/
lemma Starts.edge (h : Starts before cs t) :
    isWordEdge before = true ∨ isWordEdge cs.head? = true := by
  cases t with
  | opening => exact Or.inr (by rw [show cs.head? = some '(' from h]; decide)
  | closing => exact Or.inr (by rw [show cs.head? = some ')' from h]; decide)
  | connective op => exact Or.inl h.1
  | operand text => exact h.elim

/-- No delimiter ends between two word characters. -/
lemma Starts.edge_behind {rest : List Char} (h : Starts before (t.written ++ rest) t) :
    isWordEdge t.written.getLast? = true ∨ isWordEdge rest.head? = true := by
  cases t with
  | opening => exact Or.inl (by decide)
  | closing => exact Or.inl (by decide)
  | connective op =>
    obtain ⟨-, rest', hrest, hedge⟩ := h
    exact Or.inr (List.append_cancel_left hrest ▸ hedge)
  | operand text => exact h.elim

/-- The character in front does not matter where it and the first one are not both word
characters. -/
lemma starts_of_edge (hseam : isWordEdge before = true ∨ isWordEdge cs.head? = true) :
    Starts before cs t ↔ Starts none cs t := by
  cases t with
  | opening => exact Iff.rfl
  | closing => exact Iff.rfl
  | operand text => exact Iff.rfl
  | connective op =>
    constructor
    · rintro ⟨-, h⟩
      exact ⟨rfl, h⟩
    · rintro ⟨-, rest, rfl, hrest⟩
      refine ⟨hseam.resolve_right ?_, rest, rfl, hrest⟩
      cases op <;> exact Bool.false_ne_true

/-- No keyword lies across a seam where no two word characters meet. -/
lemma keyword_prefix_append_iff {op : Connective} {mid post : List Char} (hmid : mid ≠ [])
    (hseam : isWordEdge mid.getLast? = true ∨ isWordEdge post.head? = true) :
    op.keyword.toList <+: mid ++ post ↔ op.keyword.toList <+: mid := by
  refine ⟨?_, fun h => h.trans (List.prefix_append mid post)⟩
  rintro ⟨rest, hrest⟩
  rcases List.append_eq_append_iff.mp hrest with ⟨a, ha, -⟩ | ⟨a, ha, hpost⟩
  · exact ⟨a, ha.symm⟩
  · by_cases hnil : a = []
    · exact ⟨[], by simp [ha, hnil]⟩
    · have hcut := isWordEdge_of_keyword_cut ha hmid hnil
      rw [hcut.1, hpost, List.head?_append_of_ne_nil _ hnil, hcut.2] at hseam
      simp at hseam

/-- Whether a delimiter starts here is decided before a seam where no two word
characters meet. -/
lemma starts_append {mid post : List Char} (hmid : mid ≠ [])
    (hseam : isWordEdge mid.getLast? = true ∨ isWordEdge post.head? = true) :
    Starts before (mid ++ post) t ↔ Starts before mid t := by
  cases t with
  | opening => simp only [Starts, List.head?_append_of_ne_nil _ hmid]
  | closing => simp only [Starts, List.head?_append_of_ne_nil _ hmid]
  | operand text => exact Iff.rfl
  | connective op =>
    refine and_congr_right fun _ => ⟨?_, ?_⟩
    · rintro ⟨rest, hrest, hedge⟩
      obtain ⟨a, rfl⟩ := (keyword_prefix_append_iff hmid hseam).mp ⟨rest, hrest.symm⟩
      obtain rfl : a ++ post = rest := by simpa using hrest
      refine ⟨a, rfl, ?_⟩
      by_cases hnil : a = []
      · simp [hnil]
      · rwa [List.head?_append_of_ne_nil _ hnil] at hedge
    · rintro ⟨rest, rfl, hedge⟩
      refine ⟨rest ++ post, by simp, ?_⟩
      by_cases hnil : rest = []
      · subst hnil
        refine (hseam.resolve_left ?_)
        cases op <;> exact Bool.false_ne_true
      · rwa [List.head?_append_of_ne_nil _ hnil]

/-- A text behind a text with an even number of quotes, and in front of any other, has
the delimiters that it has alone, unless two word characters meet at a seam. -/
lemma delimiterAt_append (pre mid post : List Char) (hquotes : pre.count '\'' % 2 = 0)
    (hleft : isWordEdge pre.getLast? = true ∨ isWordEdge mid.head? = true)
    (hright : isWordEdge mid.getLast? = true ∨ isWordEdge post.head? = true)
    {j : Nat} (hj : j < mid.length) :
    DelimiterAt (pre ++ mid ++ post) (pre.length + j) t ↔ DelimiterAt mid j t := by
  have htake : (pre ++ mid ++ post).take (pre.length + j) = pre ++ mid.take j := by
    rw [List.append_assoc, List.take_length_add_append, List.take_append_of_le_length hj.le]
  have hdrop : (pre ++ mid ++ post).drop (pre.length + j) = mid.drop j ++ post := by
    rw [List.append_assoc, List.drop_length_add_append, List.drop_append_of_le_length hj.le]
  have hne : mid.drop j ≠ [] := by simpa using hj
  have hlast : (mid.drop j).getLast? = mid.getLast? := by
    rw [List.getLast?_drop, if_neg (by omega)]
  rw [DelimiterAt, DelimiterAt, htake, hdrop, starts_append hne (by rwa [hlast]),
    List.count_append]
  refine and_congr (by omega) ?_
  cases j with
  | zero => simpa using starts_of_edge hleft
  | succ j =>
    have hne' : mid.take (j + 1) ≠ [] := by
      intro hnil
      rw [List.take_eq_nil_iff] at hnil
      rcases hnil with hnil | rfl
      · simp at hnil
      · simp at hj
    rw [List.getLast?_append_of_ne_nil _ hne']

/-- A delimiter stands in front of what is behind it. -/
lemma DelimiterAt.drop_eq {i : Nat} (h : DelimiterAt cs i t) :
    cs.drop i = t.written ++ cs.drop (i + t.written.length) := by
  obtain ⟨rest, hrest⟩ := h.2.exists_append
  rw [← List.drop_drop, hrest, List.drop_left]

/-- A delimiter ends within the text. -/
lemma DelimiterAt.le_length {i : Nat} (h : DelimiterAt cs i t) :
    i + t.written.length ≤ cs.length := by
  obtain ⟨rest, hrest⟩ := h.2.exists_append
  have hlen := congrArg List.length hrest
  have hpos := h.2.length_pos
  rw [List.length_drop, List.length_append] at hlen
  omega

lemma DelimiterAt.lt_length {i : Nat} (h : DelimiterAt cs i t) : i < cs.length := by
  have hle := h.le_length
  have hpos := h.2.length_pos
  omega

/-- Delimiters do not overlap. -/
lemma DelimiterAt.le_of_lt {i j : Nat} (ht : DelimiterAt cs i t) (hu : DelimiterAt cs j u)
    (hij : i < j) : i + t.written.length ≤ j := by
  by_contra hlt
  obtain ⟨rest, hrest⟩ := ht.2.exists_append
  have hlen := hu.lt_length
  cases t with
  | opening => exact hlt hij
  | closing => exact hlt hij
  | operand text => exact ht.2.elim
  | connective op =>
    -- the second one would start between two characters of a keyword
    have htake : op.keyword.toList.take (j - i) ≠ [] := by
      simp only [ne_eq, List.take_eq_nil_iff, keyword_ne_nil, or_false]
      omega
    have hdrop : op.keyword.toList.drop (j - i) ≠ [] := by
      simp only [ne_eq, List.drop_eq_nil_iff]
      simp only [written] at hlt
      omega
    have hcut := isWordEdge_of_keyword_cut (List.take_append_drop (j - i) _).symm htake hdrop
    have hj : cs.drop j = op.keyword.toList.drop (j - i) ++ rest := by
      rw [show j = i + (j - i) by omega, ← List.drop_drop, hrest, written,
        List.drop_append_of_le_length (by simp only [written] at hlt; omega),
        Nat.add_sub_cancel_left]
    have hi : cs.take j = cs.take i ++ op.keyword.toList.take (j - i) := by
      rw [show j = i + (j - i) by omega, List.take_add, hrest, written,
        List.take_append_of_le_length (by simp only [written] at hlt; omega),
        Nat.add_sub_cancel_left]
    have hedge := hu.2.edge
    rw [hi, hj, List.getLast?_append_of_ne_nil _ htake, List.head?_append_of_ne_nil _ hdrop,
      hcut.1, hcut.2] at hedge
    simp at hedge

/-- Behind a delimiter the number of quotes is even again. -/
lemma DelimiterAt.quotes_behind {i : Nat} (h : DelimiterAt cs i t) :
    (cs.take (i + t.written.length)).count '\'' % 2 = 0 := by
  have hcount : t.written.count '\'' = 0 := List.count_eq_zero.mpr h.2.quote_not_mem
  rw [List.take_add, h.drop_eq, List.take_left, List.count_append, hcount]
  exact h.1

end Verdict.Rule.Token
