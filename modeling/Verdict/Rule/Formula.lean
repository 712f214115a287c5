import Verdict.Text.Blank
/-
Formulas: conditions joined by AND and OR.

A formula is a binary tree with the texts of conditions at its leaves; a rule is a
formula or empty.  The leaves hold text and not parsed conditions, because a rule
is displayed and stored with its conditions as they were written.
-/
namespace Verdict

/-- The two ways of joining formulas. -/
inductive Connective where
  | and
  | or
deriving DecidableEq, Repr

namespace Connective

/-- The word that writes the connective. -/
def keyword : Connective → String
  | and => "AND"
  | or => "OR"

/-- The connective that is written `word`. -/
def ofKeyword? (word : String) : Option Connective :=
  [and, or].find? (·.keyword == word)

/-- How tightly the connective binds; the greater number binds first. -/
def precedence : Connective → Nat
  | or => 0
  | and => 1

/-- The truth of two joined formulas. -/
def apply : Connective → Bool → Bool → Bool
  | and => (· && ·)
  | or => (· || ·)

end Connective

/-- A condition, or two formulas joined by a connective. -/
inductive Formula where
  | leaf (condition : String)
  | join (op : Connective) (left right : Formula)
deriving DecidableEq, Repr

namespace Formula

/-- The leaf of a condition written with blanks around it. -/
def condition (text : String) : Formula :=
  .leaf (Text.trimmed text)

/-- The texts of the conditions, from left to right. -/
def conditions : Formula → List String
  | leaf text => [text]
  | join _ left right => left.conditions ++ right.conditions

/-- How often `wanted` joins two formulas. -/
def count (wanted : Connective) : Formula → Nat
  | leaf _ => 0
  | join op left right =>
    (if op = wanted then 1 else 0) + left.count wanted + right.count wanted

/-- The number of levels; a leaf has one. -/
def depth : Formula → Nat
  | leaf _ => 1
  | join _ left right => 1 + max left.depth right.depth

/-! ## Text of a formula

Both texts are written in front of the text that follows, so that a formula of any
shape is written in one pass.
-/

/-- The formula on one line, every join between parentheses, in front of `rest`. -/
def write : Formula → List Char → List Char
  | leaf text, rest => text.toList ++ rest
  | join op left right, rest =>
    '(' :: left.write (' ' :: op.keyword.toList ++ ' ' :: right.write (')' :: rest))

/-- The formula on one line, with every join between parentheses. -/
def display (f : Formula) : String :=
  .ofList (f.write [])

/-- A line of text, indented by four spaces for each level, in front of `rest`. -/
def writeLine (level : Nat) (line : String) (rest : List Char) : List Char :=
  List.replicate (4 * level) ' ' ++ line.toList ++ '\n' :: rest

/-- The formula with a line for each leaf, join and side, in front of `rest`. -/
def writeOutline (level : Nat) : Formula → List Char → List Char
  | leaf text, rest => writeLine level ("Operand: " ++ text) rest
  | join op left right, rest =>
    writeLine level ("Operator: " ++ op.keyword) <|
    writeLine level "Left:" <| left.writeOutline (level + 1) <|
    writeLine level "Right:" <| right.writeOutline (level + 1) rest

/-- The formula with a line for each leaf, join and side. -/
def outline (f : Formula) : String :=
  .ofList (f.writeOutline 0 [])

theorem write_eq_append (f : Formula) (rest : List Char) : f.write rest = f.write [] ++ rest := by
  induction f generalizing rest with
  | leaf text => simp [write]
  | join op left right ihl ihr =>
    simp only [write]
    rw [ihl, ihr, ihl (_ ++ _ :: right.write [')']), ihr [')']]
    simp

end Formula

/-- A formula, or nothing: what a text without any condition comes to. -/
structure Rule where
  formula? : Option Formula
deriving DecidableEq, Repr

namespace Rule

/-- The rule without conditions. -/
def empty : Rule := ⟨none⟩

/-- The rule of a formula. -/
def ofFormula (f : Formula) : Rule := ⟨some f⟩

/-- The rule has no condition. -/
def isEmpty (r : Rule) : Bool := r.formula?.isNone

/-- The texts of the conditions, from left to right. -/
def conditions (r : Rule) : List String := r.formula?.elim [] Formula.conditions

/-- How often `wanted` joins two formulas of the rule. -/
def count (wanted : Connective) (r : Rule) : Nat := r.formula?.elim 0 (Formula.count wanted)

/-- The number of levels; the empty rule has none. -/
def depth (r : Rule) : Nat := r.formula?.elim 0 Formula.depth

/-- The rule on one line; nothing for the empty rule. -/
def display (r : Rule) : String := r.formula?.elim "" Formula.display

/-- The rule with a line for each leaf, join and side. -/
def outline (r : Rule) : String := r.formula?.elim "" Formula.outline

end Rule
end Verdict
