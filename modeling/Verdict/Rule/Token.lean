import Verdict.Rule.Formula
/-
Tokens of rule text.

Rule text is a sequence of delimiters with stretches of condition text between
them.  Outside single quotes a parenthesis is a delimiter, and so is a keyword
that no word character touches; a quote opens or closes quoted text, and one that
is never closed reaches to the end.  A stretch that is not blank is a condition;
its surrounding blanks are dropped.

`Token.scan` walks over the text once.  Besides the text that is left it needs to
know the character before it, whether a quote is open, and the stretch since the
last delimiter.  It finds the tokens that are found one at a time, starting anew
behind each of them (`Token.ofText_eq_readAll`).
-/
namespace Verdict.Rule

/-- A delimiter, or the text of a condition between two of them. -/
inductive Token where
  | opening
  | closing
  | connective (op : Connective)
  | operand (text : String)
deriving DecidableEq, Repr

namespace Token

/-- No word character stands in `c?`, which is none at either end of the text. -/
def isWordEdge (c? : Option Char) : Bool :=
  !c?.any Text.isWordChar

/-- `op` is written at the start of `cs` and no word character touches it; `before`
is the character in front of `cs`. -/
def isKeywordAt (before : Option Char) (cs : List Char) (op : Connective) : Bool :=
  isWordEdge before && (Text.afterWord? op.keyword.toList cs).any (isWordEdge ·.head?)

/-- The delimiter at the start of `cs`, outside quotes, with the number of further
characters that it takes. -/
def delimiter? (before : Option Char) (cs : List Char) : Option (Token × Nat) :=
  match cs.head? with
  | some '(' => some (opening, 0)
  | some ')' => some (closing, 0)
  | _ =>
    ([Connective.and, .or].find? (isKeywordAt before cs)).map fun op =>
      (connective op, op.keyword.length - 1)

/-- The tokens `done`, newest first, and after them the condition of a stretch,
given from right to left, if it is not blank. -/
def close (stretch : List Char) (done : List Token) : List Token :=
  match Text.trim stretch.reverse with
  | [] => done
  | text => operand (.ofList text) :: done

/-- The tokens of `cs` after those in `done`, which are given newest first.  The
first `skip` characters of `cs` belong to the last delimiter; `before` is the
character in front of `cs`, `quoted` says whether a quote is open there, and
`stretch` is the text since the last delimiter from right to left. -/
def scan (skip : Nat) (before : Option Char) (quoted : Bool) (stretch : List Char)
    (done : List Token) : List Char → List Token
  | [] => (close stretch done).reverse
  | c :: cs =>
    match skip with
    | skip + 1 => scan skip (some c) quoted stretch done cs
    | 0 =>
      match if quoted then none else delimiter? before (c :: cs) with
      | some (token, width) => scan width (some c) false [] (token :: close stretch done) cs
      | none => scan 0 (some c) (quoted != (c == '\'')) (c :: stretch) done cs

/-- The tokens of the text `rule`. -/
def ofText (rule : String) : List Token :=
  scan 0 none false [] [] rule.toList

end Token
end Verdict.Rule
