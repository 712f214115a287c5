import Verdict.Json.Error
/-
Reading entries from documents.

An entry is an object with named fields or an array with fields in a fixed order,
and `null` where there is none.  A member whose name is no field is ignored,
whatever it holds.  A document is read in the order of its text: the name of a
field is checked before its value, and what is missing is noticed at the end.

The number of arrays and objects inside each other is limited where a reader
enters them; ignored values do not count.
-/
namespace Verdict
namespace Json

/-- The number of arrays and objects that a reader may be inside of. -/
def maxLevels : Nat := 127

namespace Entry

/-- The fields that have been read of an entry. -/
structure Fields where
  kind? : Option Kind := none
  value? : Option String := none
  left? : Option Entry := none
  right? : Option Entry := none

namespace Fields

/-- The field has been read. -/
def has (fields : Fields) : Field → Bool
  | .kind => fields.kind?.isSome
  | .value => fields.value?.isSome
  | .child .left => fields.left?.isSome
  | .child .right => fields.right?.isSome

/-- The entry with these fields; `missing` is the error where a field that is
needed has not been read. -/
def entry (fields : Fields) (missing : Field → JsonError) : Except JsonError Entry :=
  match fields.kind?, fields.value? with
  | none, _ => .error (missing .kind)
  | _, none => .error (missing .value)
  | some kind, some value =>
    .ok (.node kind value (fields.left?.getD .absent) (fields.right?.getD .absent))

end Fields

/-- The kind of a given name. -/
def readKindName (name : String) : Except JsonError Kind :=
  (Kind.ofName? name).elim (.error (.unknownKind name)) .ok

/-- The kind that a document holds: its name, or an object in which that name has
the value `null`. -/
def readKind (levels : Nat) : Document → Except JsonError Kind
  | .string (some name) => readKindName name
  | .object members =>
    if levels = 0 then .error .malformed
    else
      match members with
      | .member (some name) value rest => do
        let kind ← readKindName name
        match value, rest with
        | .null, .closed => return kind
        | .null, _ => .error .malformed
        | value, _ => .error (value.mismatch .nothing)
      | _ => .error .malformed
  | _ => .error .malformed

/-- The text that a document holds. -/
def readText : Document → Except JsonError String
  | .string (some text) => .ok text
  | d => .error (d.mismatch .text)

/-- `fields` with one more field, which has the value `d`; `child` is what that
value is as an entry. -/
def Fields.read (fields : Fields) (levels : Nat) (field : Field) (d : Document)
    (child : Except JsonError Entry) : Except JsonError Fields :=
  match field with
  | .kind => (readKind levels d).map fun kind => { fields with kind? := some kind }
  | .value => (readText d).map fun value => { fields with value? := some value }
  | .child .left => child.map fun left => { fields with left? := some left }
  | .child .right => child.map fun right => { fields with right? := some right }

mutual

/-- The entry that a document holds, if it may have arrays and objects on `levels`
more levels. -/
def read (levels : Nat) : Document → Except JsonError Entry
  | .null => .ok .absent
  | .array items =>
    match levels with
    | 0 => .error .malformed
    | levels + 1 => readItems levels Field.all {} items
  | .object members =>
    match levels with
    | 0 => .error .malformed
    | levels + 1 => readMembers levels {} members
  | d => .error (d.mismatch .entry)

/-- The entry whose fields are those in `fields` and those that come in the given
order. -/
def readItems (levels : Nat) (order : List Field) (fields : Fields) :
    Items → Except JsonError Entry
  | .closed => fields.entry fun
    | .kind => .invalidLength 0
    | _ => .invalidLength 1
  | .broken => .error .malformed
  | .item value rest =>
    match order with
    | [] => .error .malformed
    | field :: order =>
      match fields.read levels field value (read levels value) with
      | .error e => .error e
      | .ok fields => readItems levels order fields rest

/-- The entry whose fields are those in `fields` and those among the members. -/
def readMembers (levels : Nat) (fields : Fields) : Members → Except JsonError Entry
  | .closed => fields.entry .missingField
  | .member (some name) value rest =>
    match Field.ofName? name with
    | none => readMembers levels fields rest
    | some field =>
      if fields.has field then .error (.duplicateField field)
      else
        match fields.read levels field value (read levels value) with
        | .error e => .error e
        | .ok fields => readMembers levels fields rest
  | _ => .error .malformed

end

end Entry

/-- What `read` makes of the document at the start of `json`, and `check` of that.
After a document only blanks may follow, but a fault inside of it comes first. -/
def decode {α β : Type} (json : String) (read : Document → Except JsonError α)
    (check : α → Except JsonError β) : Except JsonError β := do
  let (document, rest) := Document.ofText json
  let result ← check (← read document)
  if rest.isEmpty then return result else .error .malformed

end Json

/-- The rule that the document `json` holds; `null` is the empty rule. -/
def Rule.ofJson (json : String) : Except Json.JsonError Rule :=
  Json.decode json (Json.Entry.read Json.maxLevels) fun entry =>
    entry.toRule.mapError .invalidEntry

end Verdict
