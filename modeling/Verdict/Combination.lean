import Verdict.Engine
/-
Combining rules.

Rules are joined from left to right under one connective, the one that occurs more
often in them; AND where both occur equally often.  An empty rule is false: under
AND it makes the whole empty, under OR it is left out.
-/
namespace Verdict

/-- How often each connective occurs. -/
structure Tally where
  ands : Nat
  ors : Nat
deriving DecidableEq, Repr

namespace Tally

/-- The number of times that `word` is found in a text when the search goes on
behind each find; `skip` characters of the text belong to the last one. -/
def occurrences (word : List Char) (skip found : Nat) : List Char → Nat
  | [] => found
  | c :: cs =>
    match skip with
    | skip + 1 => occurrences word skip found cs
    | 0 =>
      if word.isPrefixOf (c :: cs) then occurrences word (word.length - 1) (found + 1) cs
      else occurrences word 0 found cs

/-- The keywords in the text of a rule, wherever they stand in it. -/
def ofText (text : String) : Tally :=
  let find (op : Connective) := occurrences op.keyword.toList 0 0 text.toList
  ⟨find .and, find .or⟩

/-- The connectives in a rule. -/
def ofRule (r : Rule) : Tally := ⟨r.count .and, r.count .or⟩

/-- Both tallies together. -/
def add (t u : Tally) : Tally := ⟨t.ands + u.ands, t.ors + u.ors⟩

/-- The connective that occurs more often. -/
def dominant (t : Tally) : Connective :=
  if t.ors ≤ t.ands then .and else .or

end Tally

/-- What became of a list of rules to be combined. -/
structure Combination where
  /-- The rules that were read: all of them, or those up to the first with an error. -/
  readings : List Reading
  /-- What was counted, when all rules were read without error. -/
  tally? : Option Tally
  outcome : Except RuleError Rule

namespace Engine

/-- Joins formulas to `acc` from left to right under `op`. -/
def joinTo (e : Engine) (op : Connective) (acc : Rule.Sized) :
    List Formula → Except RuleError Rule
  | [] => .ok (.ofFormula acc.formula)
  | f :: fs =>
    let depth := 1 + max acc.depth f.depth
    if e.maxDepth < depth then .error (.tooDeep e.maxDepth)
    else e.joinTo op ⟨.join op acc.formula f, depth⟩ fs

/-- Joins formulas from left to right under `op`. -/
def joinAll (e : Engine) (op : Connective) : List Formula → Except RuleError Rule
  | [] => .ok .empty
  | f :: fs => e.joinTo op ⟨f, f.depth⟩ fs

/-- Joins rules under `op`. -/
def join (e : Engine) (op : Connective) (rules : List Rule) : Except RuleError Rule :=
  if op = .and && rules.any Rule.isEmpty then .ok .empty
  else e.joinAll op (rules.filterMap Rule.formula?)

/-- The readings of `texts` up to the first with an error, newest first in `done`,
and the rules of all of them or that error. -/
def readAll (e : Engine) (done : List Reading) (rules : List Rule) :
    List String → List Reading × Except RuleError (List Rule)
  | [] => (done.reverse, .ok rules.reverse)
  | text :: texts =>
    let reading := e.read text
    match reading.outcome with
    | .ok rule => e.readAll (reading :: done) (rule :: rules) texts
    | .error error => ((reading :: done).reverse, .error error)

/-- What is counted of a rule and its text. -/
def tallyOf (e : Engine) (text : String) (rule : Rule) : Tally :=
  match e.counting with
  | .textual => .ofText text
  | .parsed => .ofRule rule

/-- Reads the texts of rules and joins the rules. -/
def combination (e : Engine) (texts : List String) : Combination :=
  match e.readAll [] [] texts with
  | (readings, .error error) => ⟨readings, none, .error error⟩
  | (readings, .ok rules) =>
    let tally := (List.zipWith e.tallyOf texts rules).foldl Tally.add ⟨0, 0⟩
    ⟨readings, some tally, e.join tally.dominant rules⟩

/-- The rule that joins the rules written by `texts`. -/
def combine (e : Engine) (texts : List String) : Except RuleError Rule :=
  (e.combination texts).outcome

end Engine

namespace Combination

/-- What is reported when rules that were counted as `tally` are joined. -/
def joiningEvents (c : Combination) (tally : Tally) : List Event :=
  let emptyUnderAnd :=
    tally.dominant = .and && c.readings.any (·.outcome.toOption.any Rule.isEmpty)
  .combining c.readings.length tally.ands tally.ors tally.dominant ::
    if emptyUnderAnd then [.emptyUnderAnd]
    else c.outcome.toOption.toList.map .combined

/-- What is reported of a combination. -/
def events (c : Combination) : List Event :=
  c.readings.flatMap Reading.events ++ c.tally?.elim [] c.joiningEvents

end Combination
end Verdict
