import Verdict.Condition
import Verdict.Rule.Token
import Verdict.Text.Quoted
/-
Events: what is reported on the way to a result.

Parsing, combining and evaluating report their decisions as events, in order.  An
event is kept as data; its text is made when someone looks at it, so a long
outline costs nothing where it is not read.
-/
namespace Verdict

/-- How much an event matters. -/
inductive Level where
  | trace
  | debug
  | warn
deriving DecidableEq, Repr

/-- Something that happened on the way to a result. -/
inductive Event where
  /-- The text of a rule was cut into tokens. -/
  | tokenized (rule : String) (tokens : List Rule.Token)
  /-- A connective found no two formulas to join. -/
  | connectiveDiscarded (op : Connective)
  /-- Formulas after the first were left over in a rule. -/
  | conditionsIgnored (rule : String) (dropped : Nat)
  /-- Rules that all parse are about to be joined. -/
  | combining (rules ands ors : Nat) (dominant : Connective)
  /-- One of the rules to be joined by AND is empty. -/
  | emptyUnderAnd
  /-- Rules were joined. -/
  | combined (rule : Rule)
  /-- A leaf holds no condition and counts as false. -/
  | unparsableCondition (text : String) (error : ConditionError)
  /-- A rule was evaluated with a report. -/
  | evaluated (result : Bool) (leaves : Nat)
deriving DecidableEq, Repr

/-- The content of a named part of an event. -/
inductive Event.Field where
  | text (s : String)
  | count (n : Nat)
  | flag (b : Bool)
deriving DecidableEq, Repr

namespace Rule.Token

/-- A token by its kind, with the text of a condition in quotes. -/
def dump : Token → String
  | opening => "Open"
  | closing => "Close"
  | connective .and => "Op(And)"
  | connective .or => "Op(Or)"
  | operand text => "Operand(" ++ Text.quoted text ++ ")"

/-- A list of tokens. -/
def dumpAll (tokens : List Token) : String :=
  "[" ++ ", ".intercalate (tokens.map dump) ++ "]"

end Rule.Token

namespace Event

/-- The level at which the event is reported. -/
def level : Event → Level
  | tokenized .. | connectiveDiscarded _ | combined _ => .trace
  | combining .. | emptyUnderAnd | evaluated .. => .debug
  | conditionsIgnored .. | unparsableCondition .. => .warn

/-- What happened, in words. -/
def message : Event → String
  | tokenized .. => "tokenized rule"
  | connectiveDiscarded _ => "operator without two operands discarded"
  | conditionsIgnored .. => "conditions not joined by AND/OR were ignored"
  | combining .. => "combining rules"
  | emptyUnderAnd => "empty rule under AND, combined rule is empty"
  | combined _ => "combined rule tree"
  | unparsableCondition .. => "unparsable condition evaluates to false"
  | evaluated .. => "evaluated rule"

/-- To what it happened. -/
def fields : Event → List (String × Field)
  | tokenized rule tokens => [("rule", .text rule), ("tokens", .text (Rule.Token.dumpAll tokens))]
  | connectiveDiscarded op => [("op", .text op.keyword)]
  | conditionsIgnored rule dropped => [("rule", .text rule), ("dropped", .count dropped)]
  | combining rules ands ors dominant =>
    [("rules", .count rules), ("and", .count ands), ("or", .count ors),
      ("dominant", .text dominant.keyword)]
  | emptyUnderAnd => []
  | combined rule => [("outline", .text rule.outline)]
  | unparsableCondition text error => [("condition", .text text), ("error", .text error.message)]
  | evaluated result leaves => [("result", .flag result), ("leaves", .count leaves)]

end Event
end Verdict
