import Verdict.Condition
import Verdict.Rule.Formula
/-
Entries: the form in which a document holds a rule.

An entry has a kind, a value and up to two children, and nothing ties these
together: documents are free to give a condition children or to leave out a side of
a join.  `Entry.formula?` makes a formula of an entry that is right in every part.
An entry is checked before its children, and the left one before the right one, so
the fault that is reported is the first in that order.
-/
namespace Verdict.Json

/-- What an entry stands for: a condition, or a join. -/
inductive Kind where
  | operand
  | operator
deriving DecidableEq, Repr

namespace Kind

/-- The name of a kind in documents. -/
def name : Kind → String
  | operand => "operand"
  | operator => "operator"

/-- The kind of a given name. -/
def ofName? (name : String) : Option Kind :=
  [operand, operator].find? (·.name == name)

end Kind

/-- A part of a rule in a document, or nothing where a part may be missing. -/
inductive Entry where
  | absent
  | node (kind : Kind) (value : String) (left right : Entry)
deriving DecidableEq, Repr

/-- A child of an entry. -/
inductive Side where
  | left
  | right
deriving DecidableEq, Repr

/-- The name of a child in documents. -/
def Side.name : Side → String
  | left => "left"
  | right => "right"

/-- A part of an entry, by its name in documents or its place in an array. -/
inductive Field where
  | kind
  | value
  | child (side : Side)
deriving DecidableEq, Repr

namespace Field

/-- The fields in the order of an array. -/
def all : List Field := [kind, value, child .left, child .right]

/-- The name of a field. -/
def name : Field → String
  | kind => "kind"
  | value => "value"
  | child side => side.name

/-- The field of a given name, which for the kind may also be its older one. -/
def ofName? (name : String) : Option Field :=
  if name == "type" then some kind else all.find? (·.name == name)

end Field

namespace Entry

/-- Why an entry does not stand for a formula. -/
inductive Fault where
  | unknownOperator (value : String)
  | missingChild (op : Connective) (side : Side)
  | unexpectedChild (value : String)
  | malformedCondition (error : ConditionError)
deriving DecidableEq, Repr

/-- The wording of a fault. -/
def Fault.message : Fault → String
  | unknownOperator value =>
    "operator node must have value AND or OR, got \"" ++ value ++ "\""
  | missingChild op side =>
    "operator node " ++ op.keyword ++ " is missing its " ++ side.name ++ " child"
  | unexpectedChild value => "operand node \"" ++ value ++ "\" must not have children"
  | malformedCondition error => error.message

/-- There is nothing. -/
def isAbsent : Entry → Bool
  | absent => true
  | node .. => false

/-- The entry of a formula. -/
def ofFormula : Formula → Entry
  | .leaf text => node .operand text absent absent
  | .join op left right => node .operator op.keyword (ofFormula left) (ofFormula right)

/-- The entry of a rule; nothing for the empty rule. -/
def ofRule (r : Rule) : Entry := r.formula?.elim absent ofFormula

/-- The formula that an entry stands for; there is none where nothing is. -/
def formula? : Entry → Except Fault (Option Formula)
  | absent => .ok none
  | node .operand value left right =>
    if left.isAbsent && right.isAbsent then
      match Condition.split value with
      | .ok _ => .ok (some (.condition value))
      | .error e => .error (.malformedCondition e)
    else .error (.unexpectedChild value)
  | node .operator value left right =>
    match Connective.ofKeyword? (Text.trimmed value) with
    | none => .error (.unknownOperator value)
    | some op =>
      if left.isAbsent then .error (.missingChild op .left)
      else if right.isAbsent then .error (.missingChild op .right)
      else do
        let left? ← left.formula?
        let right? ← right.formula?
        return .join op <$> left? <*> right?

/-- The rule that an entry stands for. -/
def toRule (e : Entry) : Except Fault Rule :=
  e.formula?.map Rule.mk

end Entry
end Verdict.Json
