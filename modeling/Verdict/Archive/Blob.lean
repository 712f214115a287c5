import Verdict.Archive.Blake3
import Verdict.Archive.Payload
import Verdict.Condition
/-
Archives: rules as bytes.

A blob is a header of 32 bytes and a payload.  The header holds the letters `RAST`,
the versions of the format and of the engine, four bytes for later use, the length
of the payload and the first half of its hash.  A blob is read in that order, and
the first thing that is wrong is the error; a payload that is intact is then
checked against the rules for conditions and against its own numbers.
-/
namespace Verdict.Archive

/-- Why bytes are not an archived rule. -/
inductive ArchiveError where
  | badMagic
  | incompatibleVersion (version : Nat)
  | checksumMismatch
  | lengthMismatch (expected actual : Nat)
  | undecodable (error : DecodeError)
  | malformedCondition (error : ConditionError)
  | leavesMismatch (declared actual : Nat)
  | depthMismatch (declared actual : Nat)
deriving DecidableEq, Repr

/-- The four bytes that start every blob. -/
def magic : List UInt8 := "RAST".toList.map fun c => .ofNat c.toNat

/-- The version of the format that is written and read. -/
def formatVersion : Nat := 1

/-- The version of the engine; it is written, but any version is read. -/
def engineVersion : Nat := 1

/-- The number of bytes in front of the payload. -/
def headerSize : Nat := 32

/-- The part of the hash that a header holds. -/
def checksum (payload : List UInt8) : List UInt8 :=
  (Blake3.hash payload).take 16

/-- The wording of a decoding fault. -/
def DecodeError.name : DecodeError → String
  | unexpectedEnd => "UnexpectedEnd"
  | invalidIntegerType => "InvalidIntegerType"
  | unexpectedVariant => "UnexpectedVariant"
  | unknownKind => "OtherString"
  | utf8 => "Utf8"

/-- The wording of an error. -/
def ArchiveError.message : ArchiveError → String
  | badMagic => "not an encoded rule tree: invalid magic bytes"
  | incompatibleVersion version =>
    "incompatible format version: blob is v" ++ toString version ++ ", engine supports v"
      ++ toString formatVersion
  | checksumMismatch => "integrity check failed: BLAKE3 checksum mismatch"
  | lengthMismatch expected actual =>
    "payload length mismatch: expected " ++ toString expected ++ " bytes, got " ++ toString actual
  | undecodable error => error.name
  | malformedCondition error => "validation failed: " ++ error.message
  | leavesMismatch declared actual =>
    "validation failed: metadata declares " ++ toString declared ++ " conditions, tree holds "
      ++ toString actual
  | depthMismatch declared actual =>
    "validation failed: metadata declares depth " ++ toString declared ++ ", tree has depth "
      ++ toString actual

/-- The blob around a payload.  The field for the length has four bytes. -/
def frame (payload : List UInt8) : List UInt8 :=
  magic ++ littleEndian 2 formatVersion ++ littleEndian 2 engineVersion ++ littleEndian 4 0
    ++ littleEndian 4 payload.length ++ checksum payload ++ payload

/-- `size` bytes of `bytes` from the position `start` on. -/
def field (bytes : List UInt8) (start size : Nat) : List UInt8 :=
  (bytes.drop start).take size

/-- The payload of a blob. -/
def unframe (bytes : List UInt8) : Except ArchiveError (List UInt8) :=
  let version := ofLittleEndian (field bytes 4 2)
  let length := ofLittleEndian (field bytes 12 4)
  let payload := field bytes headerSize length
  if bytes.length < headerSize then .error (.lengthMismatch headerSize bytes.length)
  else if field bytes 0 4 ≠ magic then .error .badMagic
  else if version ≠ formatVersion then .error (.incompatibleVersion version)
  else if bytes.length - headerSize < length then
    .error (.lengthMismatch length (bytes.length - headerSize))
  else if checksum payload ≠ field bytes 16 16 then .error .checksumMismatch
  else .ok payload

/-- The number of levels of a formula, and the number of its leaves added to `leaves`.  A leaf
that is no condition ends the count; the leaves are taken from left to right. -/
def survey : Formula → Nat → Except ConditionError (Nat × Nat)
  | .leaf text, leaves => do
    let _ ← Condition.split text
    return (1, leaves + 1)
  | .join _ left right, leaves => do
    let (leftDepth, leaves) ← survey left leaves
    let (rightDepth, leaves) ← survey right leaves
    return (1 + max leftDepth rightDepth, leaves)

/-- The rule of a payload whose leaves are conditions and whose numbers are right. -/
def Payload.validate (p : Payload) : Except ArchiveError Rule :=
  match p.formula?.elim (.ok (0, 0)) (survey · 0) with
  | .error e => .error (.malformedCondition e)
  | .ok (depth, leaves) =>
    if p.leaves.toNat ≠ leaves then .error (.leavesMismatch p.leaves.toNat leaves)
    else if p.depth.toNat ≠ depth then .error (.depthMismatch p.depth.toNat depth)
    else .ok ⟨p.formula?⟩

/-- The blob of a rule. -/
def encode (r : Rule) : List UInt8 :=
  frame (Payload.ofRule r).encode

/-- The rule that a blob holds. -/
def decode (bytes : List UInt8) : Except ArchiveError Rule :=
  match unframe bytes with
  | .error e => .error e
  | .ok payload =>
    match Payload.decode payload with
    | .error e => .error (.undecodable e)
    | .ok p => p.validate

end Verdict.Archive
