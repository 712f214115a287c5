import Verdict.Value
/-
Conditions: `<attribute> <comparator> <value>`.

`Condition.split` cuts the text of a condition into its three parts.  An attribute
is a run of word characters and a comparator a run of the characters `<>=!`, both
as long as possible; blanks around the parts do not count, and what is left is the
right-hand side.  `Condition.parse` also reads the right-hand side as a value.
-/
namespace Verdict

/-- Why a text is not a condition. -/
inductive ConditionError where
  /-- The text does not have three parts. -/
  | invalidFormat (condition : String)
  /-- The second part is no comparator. -/
  | unsupportedComparator (condition : String) (symbol : String)
deriving DecidableEq, Repr

/-- The wording of an error, with the trimmed text that it is about. -/
def ConditionError.message : ConditionError → String
  | invalidFormat condition =>
    "invalid condition format: \"" ++ condition
      ++ "\". Expected format: <attribute> <comparator> <value>, e.g. age > 30"
  | unsupportedComparator condition symbol =>
    "unsupported comparator \"" ++ symbol ++ "\" in \"" ++ condition ++ "\". Expected one of "
      ++ Comparator.supported

/-- The name of an attribute, a comparator and the value to compare the attribute with. -/
structure Condition where
  name : String
  comparator : Comparator
  value : Value
deriving DecidableEq, Repr

namespace Condition

/-- The three parts of a condition, with its right-hand side as written. -/
structure Parts where
  name : String
  comparator : Comparator
  literal : String
deriving DecidableEq, Repr

/-- The three runs of a trimmed text, cut greedily from the left: word characters,
comparator characters, and the rest, each after the blanks in front of it. -/
def runs (cs : List Char) : List Char × List Char × List Char :=
  let rest := Text.trimStart Text.isBlank (cs.dropWhile Text.isWordChar)
  (cs.takeWhile Text.isWordChar, rest.takeWhile Comparator.isSymbolChar,
    Text.trimStart Text.isBlank (rest.dropWhile Comparator.isSymbolChar))

/-- The parts of the condition that `text` writes. -/
def split (text : String) : Except ConditionError Parts :=
  let cs := Text.trim text.toList
  let (name, symbol, literal) := runs cs
  if name.isEmpty || symbol.isEmpty || literal.isEmpty then
    .error (.invalidFormat (.ofList cs))
  else
    match Comparator.ofSymbol? (.ofList symbol) with
    | some comparator => .ok ⟨.ofList name, comparator, .ofList literal⟩
    | none => .error (.unsupportedComparator (.ofList cs) (.ofList symbol))

/-- The condition that `text` writes. -/
def parse (text : String) : Except ConditionError Condition :=
  (split text).map fun p => ⟨p.name, p.comparator, .ofLiteral p.literal⟩

/-- The condition in its normal form, one space between the parts. -/
def display (c : Condition) : String :=
  c.name ++ " " ++ c.comparator.symbol ++ " " ++ c.value.display

end Condition
end Verdict
