import Verdict.Condition
import Verdict.Rule.Token
/-
Assembling a formula from tokens.

Tokens are taken from left to right.  Conditions become formulas at once; a
connective waits until the formulas on both of its sides are finished, which is
when one that binds no tighter follows, when the group around it is closed, or at
the end.  All three moments are the same step, `Built.unwind`: the waiting
connectives are taken back, newest first, and each joins the last two formulas.

Text that is not quite a rule is tolerated.  A connective that finds fewer than two
formulas is discarded, and formulas that nothing joins stand side by side until the
end.  What stops the assembly is a condition that cannot be split, a parenthesis
without partner, and a formula with more levels than the limit.
-/
namespace Verdict.Rule

/-- A finished formula with the number of its levels. -/
structure Sized where
  formula : Formula
  depth : Nat
deriving DecidableEq, Repr

/-- What waits to be completed: an open group, or a connective for its right side. -/
inductive Pending where
  | group
  | join (op : Connective)
deriving DecidableEq, Repr

/-- What has been made of the tokens so far, newest first. -/
structure Built where
  /-- Finished formulas that stand side by side. -/
  formulas : List Sized
  /-- Connectives that found no two formulas to join. -/
  discarded : List Connective
deriving DecidableEq, Repr

/-- Why tokens are not a formula. -/
inductive Fault where
  | malformedCondition (error : ConditionError)
  | unbalancedParentheses
  | tooDeep
deriving DecidableEq, Repr

/-- The fault that stopped an assembly, with the connectives discarded before it,
newest first. -/
structure Stop where
  fault : Fault
  discarded : List Connective
deriving DecidableEq, Repr

namespace Built

/-- The assembly of `b` stops. -/
def stop {α : Type} (b : Built) (fault : Fault) : Except Stop α :=
  .error ⟨fault, b.discarded⟩

/-- Joins the last two formulas under `op`, and discards `op` where there are not
two of them. -/
def reduce (limit : Nat) (op : Connective) (b : Built) : Except Stop Built :=
  match b.formulas with
  | right :: left :: rest =>
    let depth := 1 + max left.depth right.depth
    if limit < depth then b.stop .tooDeep
    else .ok { b with formulas := ⟨.join op left.formula right.formula, depth⟩ :: rest }
  | _ => .ok { b with discarded := op :: b.discarded }

/-- Takes back the connectives that wait since the last open group, newest first,
as long as they satisfy `due`.  Returns what still waits. -/
def unwind (limit : Nat) (due : Connective → Bool) :
    List Pending → Built → Except Stop (List Pending × Built)
  | .join op :: pending, b =>
    if due op then
      match b.reduce limit op with
      | .ok b => unwind limit due pending b
      | .error s => .error s
    else .ok (.join op :: pending, b)
  | pending, b => .ok (pending, b)

end Built

/-- The state between two tokens. -/
structure Assembly where
  pending : List Pending
  built : Built
deriving DecidableEq, Repr

namespace Assembly

/-- The state before the first token. -/
def start : Assembly := ⟨[], [], []⟩

/-- The state after one more token. -/
def step (limit : Nat) (a : Assembly) : Token → Except Stop Assembly
  | .operand text =>
    match Condition.split text with
    | .ok _ => .ok { a with built.formulas := ⟨.leaf text, 1⟩ :: a.built.formulas }
    | .error e => a.built.stop (.malformedCondition e)
  | .opening => .ok { a with pending := .group :: a.pending }
  | .closing =>
    match a.built.unwind limit (fun _ => true) a.pending with
    | .ok (.group :: pending, built) => .ok ⟨pending, built⟩
    | .ok (_, built) => built.stop .unbalancedParentheses
    | .error s => .error s
  | .connective op =>
    match a.built.unwind limit (op.precedence ≤ ·.precedence) a.pending with
    | .ok (pending, built) => .ok ⟨.join op :: pending, built⟩
    | .error s => .error s

/-- What is built when no token is left. -/
def finish (limit : Nat) (a : Assembly) : Except Stop Built :=
  match a.built.unwind limit (fun _ => true) a.pending with
  | .ok ([], built) => .ok built
  | .ok (_, built) => built.stop .unbalancedParentheses
  | .error s => .error s

/-- What is built when the tokens that are left are `tokens`. -/
def run (limit : Nat) (a : Assembly) : List Token → Except Stop Built
  | [] => a.finish limit
  | token :: tokens =>
    match a.step limit token with
    | .ok a => a.run limit tokens
    | .error s => .error s

end Assembly

/-- What is built of a list of tokens, for formulas of at most `limit` levels. -/
def assemble (limit : Nat) (tokens : List Token) : Except Stop Built :=
  Assembly.start.run limit tokens

end Verdict.Rule
