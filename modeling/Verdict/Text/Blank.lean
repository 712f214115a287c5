/-
White space and word characters.

Two classes of characters decide how rule text is cut.  Blanks are the
characters with the Unicode property White_Space; they may surround every part
of a rule and are never part of one.  Word characters are the ASCII letters,
digits and the underscore; they make up attribute names, and a keyword counts
as one only where no word character touches it.

Text is handled as a list of characters here, so that the laws of `List` apply
to it; `String` is the type at the border of the library.
-/
namespace Verdict.Text

/-- The characters with the property White_Space, as closed ranges of code
points in increasing order. -/
def blankRanges : List (Nat × Nat) :=
  [(0x09, 0x0D), (0x20, 0x20), (0x85, 0x85), (0xA0, 0xA0), (0x1680, 0x1680), (0x2000, 0x200A),
    (0x2028, 0x2029), (0x202F, 0x202F), (0x205F, 0x205F), (0x3000, 0x3000)]

/-- `c` is white space. -/
def isBlank (c : Char) : Bool :=
  blankRanges.any fun (first, last) => first ≤ c.toNat && c.toNat ≤ last

/-- `c` may stand in an attribute name: `[A-Za-z0-9_]`. -/
def isWordChar (c : Char) : Bool :=
  c.isAlphanum || c == '_'

/-- `cs` without the characters of `p` at its start. -/
def trimStart (p : Char → Bool) (cs : List Char) : List Char :=
  cs.dropWhile p

/-- `cs` without the characters of `p` at its end. -/
def trimEnd (p : Char → Bool) (cs : List Char) : List Char :=
  (cs.reverse.dropWhile p).reverse

/-- `cs` without the characters of `p` at either end. -/
def trimBoth (p : Char → Bool) (cs : List Char) : List Char :=
  trimEnd p (trimStart p cs)

/-- `cs` without the blanks at either end. -/
def trim (cs : List Char) : List Char :=
  trimBoth isBlank cs

/-- The text that follows `word` in `cs`, if `cs` starts with it. -/
def afterWord? (word cs : List Char) : Option (List Char) :=
  if word.isPrefixOf cs then some (cs.drop word.length) else none

theorem afterWord?_eq_some_iff {word cs rest : List Char} :
    afterWord? word cs = some rest ↔ cs = word ++ rest := by
  simp only [afterWord?, Option.ite_none_right_eq_some, Option.some.injEq,
    List.isPrefixOf_iff_prefix]
  constructor
  · rintro ⟨⟨rest', rfl⟩, rfl⟩
    simp
  · rintro rfl
    simp

/-- The text `s` without the blanks at either end. -/
def trimmed (s : String) : String :=
  .ofList (trim s.toList)

end Verdict.Text
