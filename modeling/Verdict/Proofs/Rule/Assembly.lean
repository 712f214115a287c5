import Mathlib.Algebra.GroupWithZero.Nat
import Verdict.Proofs.Rule.Formula
import Verdict.Rule.Assembly
/-
The assembly, one move at a time.

`Assembly.step` may take back many waiting connectives for a single token, and
`Assembly.finish` all of them.  Cut into moves, of which each takes back one
connective or consumes one token, an assembly is easy to follow (`Assembly.Move`).  Four things
are kept by every move:

* `Move.conditions`: the conditions of the formulas, and behind them the operands that are
  left, in order;
* `Move.total_eq`: how often each connective is left, waits, joins two formulas or has been
  discarded;
* `Move.wellSized`: each formula stands beside its true depth, within the limit;
* `Move.split`: each condition can be split.
-/
namespace Verdict.Rule

namespace Token

/-- The text of an operand. -/
def text? : Token → Option String
  | operand text => some text
  | _ => none

/-- The texts of the operands in a list of tokens, in order. -/
def operands (tokens : List Token) : List String := tokens.filterMap text?

@[simp] lemma operands_nil : operands [] = [] := rfl

@[simp] lemma operands_operand (text : String) (tokens : List Token) :
    operands (operand text :: tokens) = text :: operands tokens := rfl

@[simp] lemma operands_opening (tokens : List Token) :
    operands (opening :: tokens) = operands tokens := rfl

@[simp] lemma operands_closing (tokens : List Token) :
    operands (closing :: tokens) = operands tokens := rfl

@[simp] lemma operands_connective (op : Connective) (tokens : List Token) :
    operands (connective op :: tokens) = operands tokens := rfl

@[simp] lemma operands_append (ts us : List Token) :
    operands (ts ++ us) = operands ts ++ operands us := by
  simp [operands]

lemma forall_operands_join {op : Connective} {ts us : List Token} {P : String → Prop} :
    (∀ text ∈ operands (ts ++ connective op :: us), P text) ↔
      (∀ text ∈ operands ts, P text) ∧ ∀ text ∈ operands us, P text := by
  simp only [operands_append, operands_connective, List.mem_append, or_imp, forall_and]

end Token

namespace Built

/-- The conditions of the formulas that stand side by side, from left to right. -/
def conditions (b : Built) : List String :=
  b.formulas.reverse.flatMap (·.formula.conditions)

lemma conditions_cons (s : Sized) (formulas : List Sized) (discarded : List Connective) :
    conditions ⟨s :: formulas, discarded⟩ =
      conditions ⟨formulas, discarded⟩ ++ s.formula.conditions := by
  simp [conditions]

/-- Without conditions no formula has been built. -/
lemma conditions_eq_nil_iff {b : Built} : b.conditions = [] ↔ b.formulas = [] := by
  rw [conditions, List.flatMap_eq_nil_iff]
  constructor
  · intro hnil
    refine List.eq_nil_iff_forall_not_mem.mpr fun s hs => ?_
    exact s.formula.conditions_ne_nil (hnil s (List.mem_reverse.mpr hs))
  · intro hnil
    simp [hnil]

/-- How often `op` joins two formulas or has been discarded. -/
def count (op : Connective) (b : Built) : Nat :=
  (b.formulas.map (·.formula.count op)).sum + b.discarded.count op

/-- Taking back a connective joins the last two formulas or discards the connective. -/
lemma reduce_ok {limit : Nat} {op : Connective} {b b' : Built} (h : b.reduce limit op = .ok b') :
    (∃ right left rest, b.formulas = right :: left :: rest ∧
        1 + max left.depth right.depth ≤ limit ∧
        b' = ⟨⟨.join op left.formula right.formula, 1 + max left.depth right.depth⟩ :: rest,
          b.discarded⟩) ∨
      (b.formulas.length < 2 ∧ b' = ⟨b.formulas, op :: b.discarded⟩) := by
  obtain ⟨formulas, discarded⟩ := b
  match formulas with
  | [] =>
    simp only [reduce, Except.ok.injEq] at h
    exact Or.inr ⟨by simp, h.symm⟩
  | [s] =>
    simp only [reduce, Except.ok.injEq] at h
    exact Or.inr ⟨by simp, h.symm⟩
  | right :: left :: rest =>
    simp only [reduce] at h
    split at h
    · simp [stop] at h
    · rename_i hle
      simp only [Except.ok.injEq] at h
      exact Or.inl ⟨right, left, rest, rfl, by omega, h.symm⟩

lemma reduce_of_lt {limit : Nat} {op : Connective} {b : Built} (h : b.formulas.length < 2) :
    b.reduce limit op = .ok ⟨b.formulas, op :: b.discarded⟩ := by
  obtain ⟨formulas, discarded⟩ := b
  match formulas, h with
  | [], _ => rfl
  | [s], _ => rfl

end Built

namespace Assembly

/-- What a run that succeeds may do next, with the tokens that are left. -/
inductive Move (limit : Nat) : Assembly × List Token → Assembly × List Token → Prop
  /-- The newest waiting connective is taken back. -/
  | takeBack {op : Connective} {pending : List Pending} {b b' : Built} {ts : List Token} :
      b.reduce limit op = .ok b' → Move limit (⟨.join op :: pending, b⟩, ts) (⟨pending, b'⟩, ts)
  | operand {text : String} {parts : Condition.Parts} {pending : List Pending}
      {formulas : List Sized} {discarded : List Connective} {ts : List Token} :
      Condition.split text = .ok parts →
      Move limit (⟨pending, ⟨formulas, discarded⟩⟩, .operand text :: ts)
        (⟨pending, ⟨⟨.leaf text, 1⟩ :: formulas, discarded⟩⟩, ts)
  | opening {pending : List Pending} {b : Built} {ts : List Token} :
      Move limit (⟨pending, b⟩, .opening :: ts) (⟨.group :: pending, b⟩, ts)
  | closing {pending : List Pending} {b : Built} {ts : List Token} :
      Move limit (⟨.group :: pending, b⟩, .closing :: ts) (⟨pending, b⟩, ts)
  | connective {op : Connective} {pending : List Pending} {b : Built} {ts : List Token} :
      Move limit (⟨pending, b⟩, .connective op :: ts) (⟨.join op :: pending, b⟩, ts)

variable {limit : Nat}

/-! ## Reading a part of the tokens -/

@[simp] lemma ok_bind {α β : Type} (x : α) (f : α → Except Stop β) :
    (Except.ok x >>= f) = f x := rfl

@[simp] lemma error_bind {α β : Type} (s : Stop) (f : α → Except Stop β) :
    ((Except.error s : Except Stop α) >>= f) = .error s := rfl

/-- The state after some more tokens. -/
def advance (limit : Nat) (a : Assembly) (ts : List Token) : Except Stop Assembly :=
  ts.foldlM (step limit) a

@[simp] lemma advance_nil (a : Assembly) : a.advance limit [] = .ok a := rfl

lemma advance_cons (a : Assembly) (t : Token) (ts : List Token) :
    a.advance limit (t :: ts) = a.step limit t >>= fun a' => a'.advance limit ts := by
  simp [advance]

lemma advance_append (a : Assembly) (ts us : List Token) :
    a.advance limit (ts ++ us) = a.advance limit ts >>= fun a' => a'.advance limit us := by
  simp [advance]

lemma run_eq_advance (a : Assembly) (ts : List Token) :
    a.run limit ts = a.advance limit ts >>= finish limit := by
  induction ts generalizing a with
  | nil => rfl
  | cons t ts ih =>
    rw [run, advance_cons]
    cases a.step limit t with
    | error s => rfl
    | ok a' => simpa using ih a'

/-! ## What has been built -/

/-- A move passes conditions from the tokens to the formulas, in order. -/
lemma Move.conditions {x y : Assembly × List Token} (h : Move limit x y) :
    y.1.built.conditions ++ Token.operands y.2 = x.1.built.conditions ++ Token.operands x.2 := by
  cases h with
  | @takeBack op pending b b' ts hr =>
    rcases Built.reduce_ok hr with ⟨right, left, rest, hf, -, rfl⟩ | ⟨-, rfl⟩
    · simp [Built.conditions, hf, Formula.conditions]
    · rfl
  | operand _ => simp [Built.conditions_cons, Formula.conditions]
  | opening => rfl
  | closing => rfl
  | connective => rfl

/-- How often `op` is left to be read, waits, or is done with. -/
def total (op : Connective) (x : Assembly × List Token) : Nat :=
  x.2.count (.connective op) + x.1.pending.count (.join op) + x.1.built.count op

lemma Move.total_eq (op : Connective) {x y : Assembly × List Token} (h : Move limit x y) :
    total op y = total op x := by
  cases h with
  | @takeBack op' pending b b' ts hr =>
    rcases Built.reduce_ok hr with ⟨right, left, rest, hf, -, rfl⟩ | ⟨-, rfl⟩
    · simp only [total, Built.count, hf, Formula.count, List.map_cons, List.sum_cons,
        List.count_cons, beq_iff_eq, Pending.join.injEq]
      omega
    · simp only [total, Built.count, List.count_cons, beq_iff_eq, Pending.join.injEq]
      omega
  | operand _ => simp [total, Built.count, Formula.count]
  | opening => simp [total]
  | closing => simp [total]
  | connective =>
    simp only [total, List.count_cons, beq_iff_eq, Token.connective.injEq, Pending.join.injEq]
    omega

/-- Every formula stands beside its depth, which is within the limit. -/
def WellSized (limit : Nat) (b : Built) : Prop :=
  ∀ s ∈ b.formulas, s.depth = s.formula.depth ∧ s.depth ≤ limit

lemma Move.wellSized (hlimit : 1 ≤ limit) {x y : Assembly × List Token} (h : Move limit x y)
    (hx : WellSized limit x.1.built) : WellSized limit y.1.built := by
  cases h with
  | @takeBack op pending b b' ts hr =>
    rcases Built.reduce_ok hr with ⟨right, left, rest, hf, hle, rfl⟩ | ⟨-, rfl⟩
    · intro s hs
      rcases List.mem_cons.mp hs with rfl | hs
      · have hright := (hx right (by simp [hf])).1
        have hleft := (hx left (by simp [hf])).1
        exact ⟨by simp only [Formula.depth, hleft, hright], hle⟩
      · exact hx s (by simp [hf, hs])
    · exact hx
  | operand _ =>
    intro s hs
    rcases List.mem_cons.mp hs with rfl | hs
    · exact ⟨rfl, hlimit⟩
    · exact hx s hs
  | opening => exact hx
  | closing => exact hx
  | connective => exact hx

lemma Move.split {x y : Assembly × List Token} (h : Move limit x y)
    (hx : ∀ text ∈ x.1.built.conditions, ∃ parts, Condition.split text = .ok parts) :
    ∀ text ∈ y.1.built.conditions, ∃ parts, Condition.split text = .ok parts := by
  have hkeep := h.conditions
  cases h with
  | takeBack hr =>
    rw [List.append_cancel_right hkeep]
    exact hx
  | operand hs =>
    intro text htext
    rw [Built.conditions_cons, List.mem_append] at htext
    rcases htext with htext | htext
    · exact hx text htext
    · obtain rfl := List.mem_singleton.mp htext
      exact ⟨_, hs⟩
  | opening => exact hx
  | closing => exact hx
  | connective => exact hx

end Assembly
end Verdict.Rule
