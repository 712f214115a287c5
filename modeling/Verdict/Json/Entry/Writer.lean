import Verdict.Json.Entry
/-
Writing entries as documents.

An entry is written as an object with its fields in a fixed order, without blanks,
and a child that is absent is left out.  In a string only quotes, backslashes and
control characters are escaped.
-/
namespace Verdict
namespace Json

/-- A character of a string. -/
def escape (c : Char) : List Char :=
  match c with
  | '"' => ['\\', '"']
  | '\\' => ['\\', '\\']
  | '\x08' => ['\\', 'b']
  | '\x0c' => ['\\', 'f']
  | '\n' => ['\\', 'n']
  | '\r' => ['\\', 'r']
  | '\t' => ['\\', 't']
  | c =>
    if c.toNat < 0x20 then
      ['\\', 'u', '0', '0', Nat.digitChar (c.toNat / 16), Nat.digitChar (c.toNat % 16)]
    else [c]

/-- A string, in front of `rest`. -/
def writeString (s : String) (rest : List Char) : List Char :=
  '"' :: s.toList.flatMap escape ++ '"' :: rest

/-- The name of a member with the colon behind it, in front of `rest`. -/
def writeName (name : String) (rest : List Char) : List Char :=
  writeString name (':' :: rest)

namespace Entry

/-- What comes between the fields in front of a child and the child, if there is
one. -/
def writeChildName (side : Side) : Entry → List Char → List Char
  | absent, rest => rest
  | node .., rest => ',' :: writeName (Field.child side).name rest

/-- An entry, in front of `rest`. -/
def write : Entry → List Char → List Char
  | absent, rest => rest
  | node kind value left right, rest =>
    '\x7b' :: (writeName Field.kind.name <| writeString kind.name <| ',' ::
      (writeName Field.value.name <| writeString value <|
        writeChildName .left left <| left.write <|
          writeChildName .right right <| right.write <| '\x7d' :: rest))

/-- The document of an entry, in which `null` stands for nothing. -/
def document : Entry → String
  | absent => "null"
  | entry => .ofList (entry.write [])

end Entry
end Json

/-- The document of a rule; `null` for the empty rule. -/
def Rule.toJson (r : Rule) : String :=
  (Json.Entry.ofRule r).document

end Verdict
