import Verdict.Archive.Bytes
import Verdict.Rule.Formula
/-
The payload of an archive.

A payload is a rule behind the number of its leaves and levels.  A formula is
written from its root: a number for its kind, then the text of a leaf or the two
sides of a join.  The two numbers are declared and not computed when a payload is
read, so that the reader can compare them with what follows.
-/
namespace Verdict.Archive

/-- A formula, if any, with the numbers of leaves and levels that are declared of it. -/
structure Payload where
  leaves : UInt64
  depth : UInt64
  formula? : Option Formula
deriving DecidableEq, Repr

/-- The number that stands for a join. -/
def kindOf : Connective → UInt64
  | .and => 1
  | .or => 2

/-- The bytes of a formula, in front of `rest`. -/
def writeFormula : Formula → List UInt8 → List UInt8
  | .leaf text, rest => writeInteger 0 ++ (writeText text ++ rest)
  | .join op left right, rest =>
    writeInteger (kindOf op) ++ writeFormula left (writeFormula right rest)

/-- A join of which one side is not read yet. -/
inductive Hole where
  | left (op : Connective)
  | right (op : Connective) (left : Formula)
deriving DecidableEq, Repr

/-- Puts a formula where the innermost of the holes is.  The result is the whole
formula, or the holes that are left. -/
def fill (f : Formula) : List Hole → Formula ⊕ List Hole
  | [] => .inl f
  | .left op :: holes => .inr (.right op f :: holes)
  | .right op left :: holes => fill (.join op left f) holes

/-- A formula, or what is left of one with holes to be filled from left to right. -/
def readFormula (holes : List Hole) (bytes : List UInt8) : Decoded Formula :=
  match _kind : readInteger 4 bytes with
  | .error e => .error e
  | .ok (0, rest) =>
    match _text : readText rest with
    | .error e => .error e
    | .ok (text, rest) =>
      match fill (.leaf text) holes with
      | .inl f => .ok (f, rest)
      | .inr holes => readFormula holes rest
  | .ok (1, rest) => readFormula (.left .and :: holes) rest
  | .ok (2, rest) => readFormula (.left .or :: holes) rest
  | .ok _ => .error .unknownKind
termination_by bytes.length
decreasing_by
  · exact Nat.lt_trans (length_lt_of_readText ‹_›) (length_lt_of_readInteger ‹_›)
  · exact length_lt_of_readInteger ‹_›
  · exact length_lt_of_readInteger ‹_›

/-- A formula, if the first byte says that there is one. -/
def readOptional : List UInt8 → Decoded (Option Formula)
  | [] => .error .unexpectedEnd
  | 0 :: rest => .ok (none, rest)
  | 1 :: rest => (readFormula [] rest).map fun (f, rest) => (some f, rest)
  | _ => .error .unexpectedVariant

namespace Payload

/-- The payload of a rule. -/
def ofRule (r : Rule) : Payload :=
  ⟨.ofNat r.conditions.length, .ofNat r.depth, r.formula?⟩

/-- The bytes of a payload. -/
def encode (p : Payload) : List UInt8 :=
  writeInteger p.leaves ++ (writeInteger p.depth ++
    match p.formula? with
    | none => [0]
    | some f => 1 :: writeFormula f [])

/-- The payload at the front of `bytes`; what follows it does not matter. -/
def decode (bytes : List UInt8) : Except DecodeError Payload := do
  let (leaves, bytes) ← readInteger 8 bytes
  let (depth, bytes) ← readInteger 8 bytes
  let (formula?, _) ← readOptional bytes
  return ⟨.ofNat leaves, .ofNat depth, formula?⟩

end Payload
end Verdict.Archive
