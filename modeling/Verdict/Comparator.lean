/-
The six comparators of a condition, and how they are written.
-/
namespace Verdict

/-- A comparator of a condition. -/
inductive Comparator where
  | greater
  | less
  | greaterEqual
  | lessEqual
  | equal
  | notEqual
deriving DecidableEq, Repr

namespace Comparator

/-- Every comparator, in the order in which messages list them. -/
def all : List Comparator := [greater, less, greaterEqual, lessEqual, equal, notEqual]

/-- How the comparator is written. -/
def symbol : Comparator → String
  | greater => ">"
  | less => "<"
  | greaterEqual => ">="
  | lessEqual => "<="
  | equal => "="
  | notEqual => "!="

/-- The comparator that is written `symbol`. -/
def ofSymbol? (symbol : String) : Option Comparator :=
  all.find? (·.symbol == symbol)

/-- The symbols of all comparators, as messages list them. -/
def supported : String := ", ".intercalate (all.map symbol)

/-- `c` may stand in a run of comparator characters. -/
def isSymbolChar (c : Char) : Bool :=
  c == '<' || c == '>' || c == '=' || c == '!'

theorem ofSymbol?_symbol (c : Comparator) : ofSymbol? c.symbol = some c := by
  cases c <;> decide

end Comparator
end Verdict
