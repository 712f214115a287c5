import Verdict.Json.Token
/-
JSON documents.

A document is read as far as its text follows the grammar.  Behind the first fault
everything is `broken`: the value that stands there and the rest of every array
and object around it.  So a document says of a faulty text what comes before the
fault, and a reader that goes through a document in order meets the fault where
the text has it.

`Document.ofTokens` keeps the arrays and objects around the current place in a
list of frames, innermost first, and takes one token at a time.
-/
namespace Verdict.Json

mutual

/-- A value of a document. -/
inductive Document where
  /-- The text has a fault here. -/
  | broken
  | null
  | bool (b : Bool)
  | number (n : Number)
  | string (text? : Option String)
  | array (items : Items)
  | object (members : Members)

/-- The items of an array, in order. -/
inductive Items where
  | closed
  /-- The text has a fault here. -/
  | broken
  | item (value : Document) (rest : Items)

/-- The members of an object, in order. -/
inductive Members where
  | closed
  /-- The text has a fault here. -/
  | broken
  | member (name? : Option String) (value : Document) (rest : Members)

end

/-- Items in front of others; those in `done` are given from right to left. -/
def Items.prepend (done : List Document) (rest : Items) : Items :=
  done.foldl (fun rest value => .item value rest) rest

/-- Members in front of others; those in `done` are given from right to left. -/
def Members.prepend (done : List (Option String × Document)) (rest : Members) : Members :=
  done.foldl (fun rest (name?, value) => .member name? value rest) rest

namespace Document

/-- An array or object that waits for a value, with what it has before that value
from right to left. -/
inductive Frame where
  | array (done : List Document)
  | object (done : List (Option String × Document)) (name? : Option String)

/-- What may come next inside the frames. -/
inductive Place where
  | value
  /-- An array has just been opened. -/
  | firstItem
  | afterItem (done : List Document)
  /-- An object has just been opened. -/
  | firstName
  | nextName (done : List (Option String × Document))
  | colon (done : List (Option String × Document)) (name? : Option String)
  | afterMember (done : List (Option String × Document))

/-- Where a text is after some of its tokens. -/
inductive State where
  | inside (place : Place) (frames : List Frame)
  /-- The document has ended. -/
  | whole (document : Document)
  /-- There is a fault, of which `document` is what can be told. -/
  | stopped (document : Document)

/-- The array or object of a frame that has `value` and is faulty from there on. -/
def Frame.cut (value : Document) : Frame → Document
  | array done => .array (.prepend (value :: done) .broken)
  | object done name? => .object (.prepend ((name?, value) :: done) .broken)

/-- The array or object that is faulty at the given place inside of it; nothing
where there is none. -/
def Place.cut : Place → Document
  | value => .broken
  | firstItem => .array .broken
  | afterItem done => .array (.prepend done .broken)
  | firstName => .object .broken
  | nextName done | afterMember done => .object (.prepend done .broken)
  | colon done name? => .object (.prepend ((name?, .broken) :: done) .broken)

namespace State

/-- There is a fault behind `value` inside `frames`. -/
def stop (value : Document) (frames : List Frame) : State :=
  .stopped (frames.foldl Frame.cut value)

/-- A value has ended inside `frames`. -/
def put (value : Document) : List Frame → State
  | [] => .whole value
  | .array done :: frames => .inside (.afterItem (value :: done)) frames
  | .object done name? :: frames => .inside (.afterMember ((name?, value) :: done)) frames

/-- The value that is no array and no object and consists of `token`. -/
def scalar? : Token → Option Document
  | .null => some .null
  | .bool b => some (.bool b)
  | .number n => some (.number n)
  | .string text? => some (.string text?)
  | _ => none

/-- A value starts with `token` inside `frames`. -/
def begin (frames : List Frame) (token : Token) : State :=
  match token with
  | .beginArray => .inside .firstItem frames
  | .beginObject => .inside .firstName frames
  | token =>
    match scalar? token with
    | some value => put value frames
    | none => stop .broken frames

/-- The state after one more token. -/
def step (place : Place) (frames : List Frame) (token : Token) : State :=
  match place, token with
  | .value, token => begin frames token
  | .firstItem, .endArray => put (.array .closed) frames
  | .firstItem, token => begin (.array [] :: frames) token
  | .afterItem done, .comma => .inside .value (.array done :: frames)
  | .afterItem done, .endArray => put (.array (.prepend done .closed)) frames
  | .firstName, .string name? => .inside (.colon [] name?) frames
  | .firstName, .endObject => put (.object .closed) frames
  | .nextName done, .string name? => .inside (.colon done name?) frames
  | .colon done name?, .colon => .inside .value (.object done name? :: frames)
  | .afterMember done, .comma => .inside (.nextName done) frames
  | .afterMember done, .endObject => put (.object (.prepend done .closed)) frames
  | place, _ => stop place.cut frames

/-- The document of which the tokens that are left are `tokens`, and what of them
comes after it. -/
def run : State → List Token → Document × List Token
  | .whole document, tokens => (document, tokens)
  | .stopped document, _ => (document, [])
  | .inside place frames, [] => (frames.foldl Frame.cut place.cut, [])
  | .inside place frames, token :: tokens => (step place frames token).run tokens

end State

/-- The document that starts with the first of `tokens`, and what comes after it. -/
def ofTokens (tokens : List Token) : Document × List Token :=
  (State.inside .value []).run tokens

/-- The document at the start of the text `json`, and what comes after it. -/
def ofText (json : String) : Document × List Token :=
  ofTokens (Token.ofText json)

end Document
end Verdict.Json
