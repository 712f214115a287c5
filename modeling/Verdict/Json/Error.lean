import Verdict.Json.Document
import Verdict.Json.Entry
import Verdict.Text.Quoted
/-
Why a document is not read.

A reader meets the fault of a text (`JsonError.malformed`), or a part of a document
that it cannot use, whichever comes first.  In the second case the error says what
was found, so a part that cannot even be told, such as a number that is too large,
is a fault of the text.
-/
namespace Verdict.Json

/-- What a reader looks for. -/
inductive Wanted where
  | entry
  | text
  | nothing
  | attributes
deriving DecidableEq, Repr

/-- What is looked for, in words. -/
def Wanted.words : Wanted → String
  | entry => "struct WireNode"
  | text => "a string"
  | nothing => "unit"
  | attributes => "a map"

/-- Why a document is not read. -/
inductive JsonError where
  /-- The text is no document. -/
  | malformed
  | invalidType (found : String) (wanted : Wanted)
  | unknownKind (name : String)
  | duplicateField (field : Field)
  | missingField (field : Field)
  | invalidLength (length : Nat)
  /-- The value of an attribute is neither a number nor a text. -/
  | noValue
  | invalidEntry (fault : Entry.Fault)
deriving DecidableEq, Repr

/-- The wording of an error. -/
def JsonError.message : JsonError → String
  | malformed => "malformed document"
  | invalidType found wanted => "invalid type: " ++ found ++ ", expected " ++ wanted.words
  | unknownKind name =>
    "unknown variant `" ++ name ++ "`, expected "
      ++ " or ".intercalate ([Kind.operand, .operator].map fun k => "`" ++ k.name ++ "`")
  | duplicateField field => "duplicate field `" ++ field.name ++ "`"
  | missingField field => "missing field `" ++ field.name ++ "`"
  | invalidLength length =>
    "invalid length " ++ toString length ++ ", expected " ++ Wanted.entry.words ++ " with "
      ++ toString Field.all.length ++ " elements"
  | noValue => "data did not match any variant of untagged enum Value"
  | invalidEntry fault => fault.message

namespace Number

/-- Numbers that are no integers are written with the fewest digits that read back,
and with a signed exponent where the point would stand more than 16 digits from the
first or more than four zeros in front of it. -/
def format : Decimal.Format := ⟨.even, fun p => -5 < p && p ≤ 16, ".0", "+"⟩

/-- The finite number that is closest to a number of a document. -/
def finite? (n : Number) : Option Binary64 :=
  some n.toBinary64 |>.filter Binary64.isFinite

/-- A number in words: as an integer if it is one of at most 64 bits. -/
def describe? (n : Number) : Option String :=
  let floating := n.finite?.map fun x => "floating point `" ++ x.write format ++ "`"
  match n with
  | integer k =>
    if -0x8000000000000000 ≤ k && k < 0x10000000000000000 then
      some ("integer `" ++ toString k ++ "`")
    else floating
  | decimal _ => floating

end Number

namespace Document

/-- What a document holds, in words. -/
def describe? : Document → Option String
  | broken => none
  | null => some "null"
  | bool b => some ("boolean `" ++ toString b ++ "`")
  | number n => n.describe?
  | string text? => text?.map fun s => "string " ++ Text.quoted s
  | array _ => some "sequence"
  | object _ => some "map"

/-- The error of a document that is not what is wanted. -/
def mismatch (d : Document) (wanted : Wanted) : JsonError :=
  d.describe?.elim .malformed (.invalidType · wanted)

end Document
end Verdict.Json
