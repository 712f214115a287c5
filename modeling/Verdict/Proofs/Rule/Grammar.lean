import Verdict.Engine
import Verdict.Proofs.Rule.Assembly
/-
The grammar of rules, and what is assembled of its sentences.

A rule without stray words is a sentence of the grammar

  disjunction  ::=  conjunction  |  disjunction OR conjunction
  conjunction  ::=  factor  |  conjunction AND factor
  factor       ::=  condition  |  ( disjunction )

and its meaning is the tree of its derivation, in which parentheses leave no trace.

The assembly knows no derivations: it keeps formulas and waiting connectives side by
side, and joins at three different moments.  What ties both together is `Reads`.  The
tokens of a derivation may leave connectives waiting, but only such as its symbol allows
(`Symbol.mayWait`), and once these are taken back, for whatever reason, the tree of the
derivation has been built on top of what was there, or the limit has been exceeded.
-/
namespace Verdict.Rule

/-- The symbols of the grammar. -/
inductive Symbol where
  | disjunction
  | conjunction
  | factor
deriving DecidableEq, Repr

/-- The derivations from each symbol. -/
inductive Derivation : Symbol → Type
  | conjunction : Derivation .conjunction → Derivation .disjunction
  | or : Derivation .disjunction → Derivation .conjunction → Derivation .disjunction
  | factor : Derivation .factor → Derivation .conjunction
  | and : Derivation .conjunction → Derivation .factor → Derivation .conjunction
  | operand (text : String) : Derivation .factor
  | group : Derivation .disjunction → Derivation .factor

namespace Derivation

/-- The sentence that is derived. -/
def tokens {k : Symbol} : Derivation k → List Token
  | conjunction d => d.tokens
  | or l r => l.tokens ++ .connective .or :: r.tokens
  | factor d => d.tokens
  | and l r => l.tokens ++ .connective .and :: r.tokens
  | operand text => [.operand text]
  | group d => .opening :: d.tokens ++ [.closing]

/-- The formula that the sentence stands for. -/
def tree {k : Symbol} : Derivation k → Formula
  | conjunction d => d.tree
  | or l r => .join .or l.tree r.tree
  | factor d => d.tree
  | and l r => .join .and l.tree r.tree
  | operand text => .leaf text
  | group d => d.tree

end Derivation

/-- The connectives that may still wait when a sentence of the symbol has been read. -/
def Symbol.mayWait : Symbol → Connective → Bool
  | disjunction, op => Connective.or.precedence ≤ op.precedence
  | conjunction, op => Connective.and.precedence ≤ op.precedence
  | factor, _ => false

namespace Assembly

variable {limit : Nat}

/-- The state after the tokens `ts`, when the connectives that satisfy `due` have been
taken back. -/
def settle (limit : Nat) (due : Connective → Bool) (a : Assembly) (ts : List Token) :
    Except Stop (List Pending × Built) :=
  a.advance limit ts >>= fun a' => a'.built.unwind limit due a'.pending

/-- No connective that satisfies `due` is the newest thing that waits. -/
def Calm (due : Connective → Bool) (pending : List Pending) : Prop :=
  ∀ op rest, pending = .join op :: rest → due op = false

lemma unwind_of_calm {due : Connective → Bool} {pending : List Pending} (h : Calm due pending)
    (b : Built) : b.unwind limit due pending = .ok (pending, b) := by
  match pending with
  | [] => rfl
  | .group :: rest => rfl
  | .join op :: rest => simp [Built.unwind, h op rest rfl]

/-- The tokens `ts`, read in any state without an older connective that belongs to them,
amount to the formula `f`. -/
def Reads (limit : Nat) (k : Symbol) (ts : List Token) (f : Formula) : Prop :=
  ∀ (due : Connective → Bool) (pending : List Pending) (formulas : List Sized)
    (discarded : List Connective),
    (∀ op, k.mayWait op = true → due op = true) → Calm k.mayWait pending →
    settle limit due ⟨pending, ⟨formulas, discarded⟩⟩ ts =
      if f.depth ≤ limit then
        Built.unwind limit due pending ⟨⟨f, f.depth⟩ :: formulas, discarded⟩
      else .error ⟨.tooDeep, discarded⟩

/-- A symbol that leaves less waiting is read wherever one that leaves more is. -/
lemma Reads.mono {k k' : Symbol} (hk : ∀ op, k.mayWait op = true → k'.mayWait op = true)
    {ts : List Token} {f : Formula} (h : Reads limit k ts f) : Reads limit k' ts f := by
  intro due pending formulas discarded hdue hcalm
  refine h due pending formulas discarded (fun op hop => hdue op (hk op hop)) ?_
  intro op rest hrest
  have hop := hcalm op rest hrest
  cases hwait : k.mayWait op with
  | false => rfl
  | true => exact absurd (hk op hwait) (by simp [hop])

lemma reads_operand (hlimit : 1 ≤ limit) {text : String}
    (hsplit : ∃ parts, Condition.split text = .ok parts) :
    Reads limit .factor [.operand text] (.leaf text) := by
  intro due pending formulas discarded hdue hcalm
  obtain ⟨parts, hparts⟩ := hsplit
  simp [settle, advance_cons, step, hparts, Formula.depth, hlimit]

/-- The state behind a closing parenthesis, when all that waited in the group has been taken
back. -/
def leave : List Pending × Built → Except Stop Assembly
  | (.group :: pending, built) => .ok ⟨pending, built⟩
  | (_, built) => built.stop .unbalancedParentheses

/-- What has been built, when all that waited has been taken back. -/
def complete : List Pending × Built → Except Stop Built
  | ([], built) => .ok built
  | (_, built) => built.stop .unbalancedParentheses

/-- A connective makes way for `op` exactly when its symbol lets it wait. -/
lemma step_connective (a : Assembly) (op : Connective) :
    a.step limit (.connective op) =
      a.built.unwind limit (op.precedence ≤ ·.precedence) a.pending >>=
        fun x => .ok ⟨.join op :: x.1, x.2⟩ := by
  rw [step]
  cases a.built.unwind limit (op.precedence ≤ ·.precedence) a.pending with
  | error s => rfl
  | ok x => rfl

lemma step_closing (a : Assembly) :
    a.step limit .closing =
      a.built.unwind limit (fun _ => true) a.pending >>= leave := by
  rw [step]
  cases a.built.unwind limit (fun _ => true) a.pending with
  | error s => rfl
  | ok x =>
    obtain ⟨_ | ⟨_ | op, rest⟩, built⟩ := x
    · rfl
    · rfl
    · rfl

/-- Both binary productions: `op` makes way for itself on its left, and the symbol on
its right is read while `op` waits. -/
lemma Reads.join {k k' : Symbol} {op : Connective} {ts us : List Token} {f g : Formula}
    (hf : Reads limit k ts f) (hg : Reads limit k' us g)
    (hk : k.mayWait = fun op' => decide (op.precedence ≤ op'.precedence))
    (hop : k'.mayWait op = false)
    (hk' : ∀ op', k'.mayWait op' = true → k.mayWait op' = true) :
    Reads limit k (ts ++ .connective op :: us) (.join op f g) := by
  intro due pending formulas discarded hdue hcalm
  have hleft := hf k.mayWait pending formulas discarded (fun _ h => h) hcalm
  rw [unwind_of_calm hcalm] at hleft
  have hread : settle limit due ⟨pending, ⟨formulas, discarded⟩⟩ (ts ++ .connective op :: us) =
      settle limit k.mayWait ⟨pending, ⟨formulas, discarded⟩⟩ ts >>=
        fun x => settle limit due ⟨.join op :: x.1, x.2⟩ us := by
    simp only [settle, advance_append, advance_cons, step_connective, hk, bind_assoc]
    rfl
  rw [hread, hleft]
  by_cases hfd : f.depth ≤ limit
  · -- `op` is the newest that waits, and the symbol on its right does not take it back
    have hcalm' : Calm k'.mayWait (.join op :: pending) := by
      intro op' rest hrest
      obtain ⟨rfl, -⟩ : op = op' ∧ pending = rest := by simpa using hrest
      exact hop
    have hwaits : due op = true := hdue op (by simp [hk])
    rw [if_pos hfd, ok_bind, hg due _ _ _ (fun op' h => hdue op' (hk' op' h)) hcalm']
    by_cases hgd : g.depth ≤ limit
    · rw [if_pos hgd]
      by_cases hd : 1 + max f.depth g.depth ≤ limit
      · simp [Built.unwind, hwaits, Built.reduce, Nat.not_lt.mpr hd, Formula.depth, hd]
      · simp [Built.unwind, hwaits, Built.reduce, Nat.not_le.mp hd, Formula.depth, hd, Built.stop]
    · have hd : ¬ (Formula.join op f g).depth ≤ limit := by simp only [Formula.depth]; omega
      rw [if_neg hgd, if_neg hd]
  · have hd : ¬ (Formula.join op f g).depth ≤ limit := by simp only [Formula.depth]; omega
    rw [if_neg hfd, if_neg hd, error_bind]

/-- Closing a group takes back what waits in it and nothing else. -/
lemma Reads.group {ts : List Token} {f : Formula} (h : Reads limit .disjunction ts f) :
    Reads limit .factor (.opening :: ts ++ [.closing]) f := by
  intro due pending formulas discarded hdue hcalm
  -- the open group keeps what is older than it
  have hcalm' : ∀ due, Calm due (.group :: pending) := by
    intro due op rest hrest
    simp at hrest
  have hinner := h (fun _ => true) (.group :: pending) formulas discarded (fun _ _ => rfl)
    (hcalm' _)
  rw [unwind_of_calm (hcalm' _)] at hinner
  have hread : settle limit due ⟨pending, ⟨formulas, discarded⟩⟩ (.opening :: ts ++ [.closing]) =
      settle limit (fun _ => true) ⟨.group :: pending, ⟨formulas, discarded⟩⟩ ts >>= leave >>=
        fun a => a.built.unwind limit due a.pending := by
    simp only [settle, List.cons_append, advance_cons, advance_append, step_closing, bind_assoc]
    rfl
  rw [hread, hinner]
  by_cases hfd : f.depth ≤ limit
  · simp [hfd, leave]
  · simp [hfd]

/-- Every derivation is read as its tree. -/
theorem reads_derivation (hlimit : 1 ≤ limit) {k : Symbol} (d : Derivation k)
    (hsplit : ∀ text ∈ Token.operands d.tokens, ∃ parts, Condition.split text = .ok parts) :
    Reads limit k d.tokens d.tree := by
  induction d with
  | conjunction d ih =>
    refine (ih hsplit).mono ?_
    intro op
    cases op <;> decide
  | factor d ih =>
    refine (ih hsplit).mono ?_
    intro op
    cases op <;> decide
  | operand text => exact reads_operand hlimit (hsplit text (by simp [Derivation.tokens]))
  | group d ih =>
    have hinner := ih (by
      intro text htext
      exact hsplit text (by simpa [Derivation.tokens] using htext))
    exact hinner.group
  | or l r ihl ihr =>
    obtain ⟨hsplitl, hsplitr⟩ := Token.forall_operands_join.mp hsplit
    refine (ihl hsplitl).join (ihr hsplitr) rfl rfl ?_
    intro op
    cases op <;> decide
  | and l r ihl ihr =>
    obtain ⟨hsplitl, hsplitr⟩ := Token.forall_operands_join.mp hsplit
    refine (ihl hsplitl).join (ihr hsplitr) rfl rfl ?_
    intro op
    cases op <;> decide

lemma finish_eq (a : Assembly) :
    a.finish limit = a.built.unwind limit (fun _ => true) a.pending >>= complete := by
  rw [finish]
  cases a.built.unwind limit (fun _ => true) a.pending with
  | error s => rfl
  | ok x =>
    obtain ⟨_ | ⟨entry, rest⟩, built⟩ := x
    · rfl
    · rfl

end Assembly

/-- What is assembled of a sentence of the grammar. -/
theorem assemble_derivation {limit : Nat} (hlimit : 1 ≤ limit) (d : Derivation .disjunction)
    (hsplit : ∀ text ∈ Token.operands d.tokens, ∃ parts, Condition.split text = .ok parts) :
    assemble limit d.tokens =
      if d.tree.depth ≤ limit then .ok ⟨[⟨d.tree, d.tree.depth⟩], []⟩
      else .error ⟨.tooDeep, []⟩ := by
  have hread := Assembly.reads_derivation hlimit d hsplit (fun _ => true) [] [] [] (fun _ _ => rfl)
    (by intro op rest hrest; simp at hrest)
  have hrun : assemble limit d.tokens =
      Assembly.settle limit (fun _ => true) .start d.tokens >>= Assembly.complete := by
    simp only [assemble, Assembly.run_eq_advance, Assembly.settle, bind_assoc]
    congr 1
    funext a
    exact Assembly.finish_eq a
  rw [hrun, Assembly.start, hread]
  by_cases hd : d.tree.depth ≤ limit
  · simp [hd, Built.unwind, Assembly.complete]
  · simp [hd]

end Verdict.Rule
