import Verdict.Context
import Verdict.Json.Entry.Reader
/-
Reading contexts from documents.

A context is an object whose members are attributes with their values, numbers or
texts.  A value of another kind is read to its end before it is refused, so a fault
of the text inside of it comes first.
-/
namespace Verdict
namespace Json

mutual

/-- The document has no fault, every text and number in it can be told, and it has
arrays and objects on at most `levels` levels. -/
def Document.isSound (levels : Nat) : Document → Bool
  | .broken => false
  | .null | .bool _ => true
  | .number n => n.finite?.isSome
  | .string text? => text?.isSome
  | .array items =>
    match levels with
    | 0 => false
    | levels + 1 => items.isSound levels
  | .object members =>
    match levels with
    | 0 => false
    | levels + 1 => members.isSound levels

/-- Every item is sound. -/
def Items.isSound (levels : Nat) : Items → Bool
  | .closed => true
  | .broken => false
  | .item value rest => value.isSound levels && rest.isSound levels

/-- Every member is sound. -/
def Members.isSound (levels : Nat) : Members → Bool
  | .closed => true
  | .broken => false
  | .member name? value rest => name?.isSome && value.isSound levels && rest.isSound levels

end

/-- The value of an attribute that a document holds. -/
def readValue (levels : Nat) (d : Document) : Except JsonError Value :=
  match d with
  | .number n => n.finite?.elim (.error .malformed) (.ok ∘ .number)
  | .string text? => text?.elim (.error .malformed) (.ok ∘ .text)
  | d => .error (if d.isSound levels then .noValue else .malformed)

/-- `ctx` with the attributes among the members. -/
def readAttributes (levels : Nat) (ctx : Context) : Members → Except JsonError Context
  | .closed => .ok ctx
  | .member (some name) value rest =>
    match readValue levels value with
    | .error e => .error e
    | .ok value => readAttributes levels (ctx.insert name value) rest
  | _ => .error .malformed

/-- The context that a document holds. -/
def readContext : Document → Except JsonError Context
  | .object members => readAttributes (maxLevels - 1) .empty members
  | d => .error (d.mismatch .attributes)

end Json

/-- The context that the document `json` holds. -/
def Context.ofJson (json : String) : Except Json.JsonError Context :=
  Json.decode json Json.readContext .ok

end Verdict
