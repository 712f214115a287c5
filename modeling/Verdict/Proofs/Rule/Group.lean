import Verdict.Proofs.Rule.Turn
/-
A group among other formulas.

All groups of a text share one list of finished formulas, and a connective is taken back as
soon as two formulas stand there, wherever they come from.  So what is read between two
parentheses need not be what is read of the same tokens alone.  Where the group is all there is,
the two are the same, up to parentheses without partner (`assemble_group`).

The tokens of a group make the same turns as they do alone (`Turn.lift`), but for one kind:
where a connective is discarded beside a formula (`Grasp`), inside a group that formula is
joined with the one in front of the group.  The first grasp therefore decides
(`Turns.inward_or_grasp`): the join that it makes stays leftmost in all that is built later.
Two groups joined by `op` are the join of what they are alone if and only if the second keeps
to itself under `op` (`SelfContained`, `writes_twoGroups_iff`).
-/
namespace Verdict.Rule

open Token (operands)

namespace Assembly

variable {limit : Nat}

/-! ## What only grows, and what stays -/

lemma Move.discarded_suffix {x y : Assembly × List Token} (h : Move limit x y) :
    x.1.built.discarded <:+ y.1.built.discarded := by
  cases h with
  | takeBack hr =>
    rcases Built.reduce_ok hr with ⟨right, left, rest, -, -, rfl⟩ | ⟨-, rfl⟩
    · exact List.suffix_refl _
    · exact List.suffix_cons _ _
  | _ => exact List.suffix_refl _

lemma Turns.discarded_suffix {x y : Assembly × List Token} (h : Turns limit x y) :
    x.1.built.discarded <:+ y.1.built.discarded :=
  h.keeps (P := fun y => x.1.built.discarded <:+ y.1.built.discarded)
    (fun _ _ hmove hx => hx.trans hmove.discarded_suffix) (List.suffix_refl _)

lemma Move.tokens_suffix {x y : Assembly × List Token} (h : Move limit x y) : y.2 <:+ x.2 := by
  cases h with
  | takeBack _ => exact List.suffix_refl _
  | _ => exact List.suffix_cons _ _

/-- Behind the last operand no operand is left. -/
lemma Turns.operands_eq_nil {x y : Assembly × List Token} (h : Turns limit x y)
    (hx : operands x.2 = []) : operands y.2 = [] := by
  refine h.keeps (P := fun y => operands y.2 = []) (fun y z hmove hy => ?_) hx
  obtain ⟨used, hused⟩ := hmove.tokens_suffix
  rw [← hused, Token.operands_append] at hy
  exact (List.append_eq_nil_iff.mp hy).2

lemma Move.formulas_ne_nil {x y : Assembly × List Token} (h : Move limit x y)
    (hx : x.1.built.formulas ≠ []) : y.1.built.formulas ≠ [] := by
  cases h with
  | takeBack hr =>
    rcases Built.reduce_ok hr with ⟨right, left, rest, -, -, rfl⟩ | ⟨-, rfl⟩
    · simp
    · exact hx
  | operand _ => simp
  | _ => exact hx

lemma Turns.formulas_ne_nil {x y : Assembly × List Token} (h : Turns limit x y)
    (hx : x.1.built.formulas ≠ []) : y.1.built.formulas ≠ [] :=
  h.keeps (P := fun y => y.1.built.formulas ≠ []) (fun _ _ hmove => hmove.formulas_ne_nil) hx

/-- What stands leftmost in the oldest formula stays there. -/
lemma Move.leftmost {f : Formula} {x y : Assembly × List Token} (h : Move limit x y)
    (hx : ∃ s, x.1.built.formulas.getLast? = some s ∧ f.Leftmost s.formula) :
    ∃ s, y.1.built.formulas.getLast? = some s ∧ f.Leftmost s.formula := by
  obtain ⟨s, hs, hleft⟩ := hx
  cases h with
  | takeBack hr =>
    rcases Built.reduce_ok hr with ⟨right, left, rest, hf, -, rfl⟩ | ⟨-, rfl⟩
    · dsimp only at hs
      rw [hf, List.getLast?_cons_cons, List.getLast?_cons] at hs
      rw [List.getLast?_cons]
      cases hrest : rest.getLast? with
      | none =>
        obtain rfl : left = s := by simpa [hrest] using hs
        exact ⟨_, rfl, .join _ _ hleft⟩
      | some last =>
        obtain rfl : last = s := by simpa [hrest] using hs
        exact ⟨last, rfl, hleft⟩
    · exact ⟨s, hs, hleft⟩
  | operand _ =>
    dsimp only at hs ⊢
    refine ⟨s, ?_, hleft⟩
    rw [List.getLast?_cons, hs]
    rfl
  | _ => exact ⟨s, hs, hleft⟩

/-! ## The same turns in a group -/

/-- The point `x`, inside a group that was opened in the state `outer`, with the tokens `after`
behind it. -/
def inGroup (outer : Assembly) (after : List Token) (x : Assembly × List Token) :
    Assembly × List Token :=
  (⟨x.1.pending ++ .group :: outer.pending,
    ⟨x.1.built.formulas ++ outer.built.formulas, x.1.built.discarded ++ outer.built.discarded⟩⟩,
    x.2 ++ .closing :: after)

variable {outer : Assembly} {after : List Token}

/-- What is overdue at the end is overdue before a closing parenthesis. -/
lemma due_append_closing (op : Connective) (ts after : List Token) :
    Due op (ts ++ .closing :: after) ↔ Due op ts := by
  cases ts with
  | nil => exact Iff.rfl
  | cons t ts => cases t <;> exact Iff.rfl

lemma overdue_inGroup (x : Assembly × List Token) :
    Overdue (inGroup outer after x) ↔ Overdue x := by
  obtain ⟨⟨pending, b⟩, ts⟩ := x
  match pending with
  | [] =>
    constructor
    · rintro ⟨op, rest, heq, -⟩
      simp [inGroup] at heq
    · rintro ⟨op, rest, heq, -⟩
      simp at heq
  | .group :: pending =>
    constructor
    · rintro ⟨op, rest, heq, -⟩
      simp [inGroup] at heq
    · rintro ⟨op, rest, heq, -⟩
      simp at heq
  | .join op :: pending =>
    rw [overdue_join, ← due_append_closing op ts after]
    exact overdue_join

/-- A move is one inside a group, too, unless it discards a connective that finds a second
formula in front of the group. -/
lemma Move.lift {x y : Assembly × List Token} (h : Move limit x y)
    (hreach : y.1.built.discarded ≠ x.1.built.discarded →
      (x.1.built.formulas ++ outer.built.formulas).length < 2) :
    Move limit (inGroup outer after x) (inGroup outer after y) := by
  cases h with
  | @takeBack op pending b b' ts hr =>
    refine .takeBack ?_
    rcases Built.reduce_ok hr with ⟨right, left, rest, hf, hle, rfl⟩ | ⟨-, rfl⟩
    · rw [hf, Built.reduce]
      exact if_neg (Nat.not_lt.mpr hle)
    · exact Built.reduce_of_lt (hreach (List.cons_ne_self _ _))
  | operand hs => exact .operand hs
  | opening => exact .opening
  | closing => exact .closing
  | connective => exact .connective

lemma Turn.lift {x y : Assembly × List Token} (h : Turn limit x y)
    (hreach : y.1.built.discarded ≠ x.1.built.discarded →
      (x.1.built.formulas ++ outer.built.formulas).length < 2) :
    Turn limit (inGroup outer after x) (inGroup outer after y) := by
  refine ⟨h.move.lift hreach, ?_⟩
  rw [overdue_inGroup, ← h.stays_iff]
  exact List.append_left_inj _

/-- A connective is discarded only where there are not two formulas, and these stay. -/
lemma Move.of_discarded {x y : Assembly × List Token} (h : Move limit x y)
    (hdiscarded : y.1.built.discarded ≠ x.1.built.discarded) :
    x.1.built.formulas.length < 2 ∧ y.1.built.formulas = x.1.built.formulas := by
  cases h with
  | takeBack hr =>
    rcases Built.reduce_ok hr with ⟨right, left, rest, -, -, rfl⟩ | ⟨hlt, rfl⟩
    · exact absurd rfl hdiscarded
    · exact ⟨hlt, rfl⟩
  | _ => exact absurd rfl hdiscarded

/-- In a group with no formula in front of it, all turns are the same. -/
lemma Turns.lift (houter : outer.built.formulas = []) {x y : Assembly × List Token}
    (h : Turns limit x y) : Turns limit (inGroup outer after x) (inGroup outer after y) := by
  induction h with
  | refl => exact .refl
  | tail _ hturn ih =>
    refine ih.tail (hturn.lift fun hdiscarded => ?_)
    rw [houter, List.append_nil]
    exact (hturn.move.of_discarded hdiscarded).1

lemma turn_open (outer : Assembly) (ts after : List Token) :
    Turn limit (outer, .opening :: (ts ++ .closing :: after))
      (inGroup outer after (start, ts)) := by
  refine turn_read .opening ?_
  rintro ⟨op, pending, -, hdue⟩
  exact hdue

lemma turn_close (outer : Assembly) (after : List Token) (b : Built) :
    Turn limit (inGroup outer after (⟨[], b⟩, []))
      (⟨outer.pending, ⟨b.formulas ++ outer.built.formulas,
        b.discarded ++ outer.built.discarded⟩⟩, after) := by
  refine turn_read .closing ((overdue_inGroup _).not.mpr ?_)
  rintro ⟨op, pending, heq, -⟩
  simp at heq

/-- A group with no formula in front of it is what it is alone. -/
lemma turns_group (outer : Assembly) (houter : outer.built.formulas = []) {ts : List Token}
    {b : Built} (h : assemble limit ts = .ok b) :
    Turns limit (outer, .opening :: (ts ++ .closing :: after))
      (⟨outer.pending, ⟨b.formulas, b.discarded ++ outer.built.discarded⟩⟩, after) := by
  have hclose : Turn limit (inGroup outer after (⟨[], b⟩, [])) _ := turn_close outer after b
  rw [houter, List.append_nil] at hclose
  exact .head (turn_open outer ts after) (((turns_of_run h).lift houter).tail hclose)

/-! ## A group around everything -/

/-- A run that is stuck is stuck inside a group, too, unless a parenthesis has no partner. -/
lemma Stuck.lift {x : Assembly × List Token} {fault : Fault} (h : Stuck limit x fault)
    (hne : fault ≠ .unbalancedParentheses) : Stuck limit (inGroup outer after x) fault := by
  cases h with
  | condition hs => exact .condition hs
  | unopened => exact absurd rfl hne
  | unclosed => exact absurd rfl hne
  | tooDeep hdue hdeep => exact .tooDeep ((due_append_closing _ _ _).mpr hdue) hdeep

/-- Tokens in a group of their own come to what they come to without it, unless a parenthesis
among them has no partner. -/
theorem assemble_group (limit : Nat) (ts : List Token) :
    assemble limit (.opening :: (ts ++ [.closing])) = assemble limit ts ∨
      ∃ discarded, assemble limit ts = .error ⟨.unbalancedParentheses, discarded⟩ := by
  obtain ⟨x, hturns, hend⟩ := exists_turns limit (start, ts)
  have halone : assemble limit ts = x.1.run limit x.2 := hturns.run_eq
  have hinside : Turns limit (start, .opening :: (ts ++ [.closing])) (inGroup start [] x) :=
    .head (turn_open start ts []) (hturns.lift rfl)
  rcases hend with ⟨b, rfl⟩ | ⟨fault, hstuck⟩
  · -- the closing parenthesis leaves the formulas as they are
    have hclose : Turn limit (inGroup start [] (⟨[], b⟩, []))
        (⟨[], ⟨b.formulas ++ [], b.discarded ++ []⟩⟩, []) := turn_close start [] b
    rw [List.append_nil, List.append_nil] at hclose
    have hgroup : Turns limit (start, .opening :: (ts ++ [.closing])) (⟨[], b⟩, []) :=
      hinside.tail hclose
    exact Or.inl (hgroup.run_eq.trans halone.symm)
  · rw [hstuck.run_eq] at halone
    by_cases hfault : fault = .unbalancedParentheses
    · subst hfault
      exact Or.inr ⟨_, halone⟩
    · refine Or.inl (hinside.run_eq.trans ?_)
      rw [(hstuck.lift hfault).run_eq, halone]
      simp [inGroup, start, Built.stop]

/-! ## Grasping for a formula in front -/

/-- From `x` to `y` the connective `op` is discarded beside the formula `s`; it would have joined
`s` with a formula in front. -/
inductive Grasp (op : Connective) (s : Sized) :
    Assembly × List Token → Assembly × List Token → Prop
  | intro {pending : List Pending} {discarded : List Connective} {ts : List Token} :
      Due op ts → Grasp op s (⟨.join op :: pending, ⟨[s], discarded⟩⟩, ts)
        (⟨pending, ⟨[s], op :: discarded⟩⟩, ts)

lemma Grasp.turn {op : Connective} {s : Sized} {x y : Assembly × List Token}
    (h : Grasp op s x y) : Turn limit x y := by
  cases h with
  | intro hdue => exact turn_takeBack hdue rfl

/-- A turn that does not grasp for anything: a connective is discarded only where there is no
formula at all. -/
structure Inward (limit : Nat) (x y : Assembly × List Token) : Prop where
  turn : Turn limit x y
  formulas_eq : y.1.built.discarded ≠ x.1.built.discarded → x.1.built.formulas = []

/-- A path of such turns. -/
abbrev Inwards (limit : Nat) : Assembly × List Token → Assembly × List Token → Prop :=
  Relation.ReflTransGen (Inward limit)

lemma Inwards.turns {x y : Assembly × List Token} (h : Inwards limit x y) : Turns limit x y :=
  Relation.ReflTransGen.mono (fun _ _ hinward => hinward.turn) _ _ h

/-- A group behind a single formula makes the same turns, as long as it does not grasp for it. -/
lemma Inwards.lift (outer : Assembly) (houter : outer.built.formulas.length < 2)
    {x y : Assembly × List Token} (h : Inwards limit x y) :
    Turns limit (inGroup outer after x) (inGroup outer after y) := by
  induction h with
  | refl => exact .refl
  | tail _ hinward ih =>
    refine ih.tail (hinward.turn.lift fun hdiscarded => ?_)
    rw [hinward.formulas_eq hdiscarded, List.nil_append]
    exact houter

lemma Turn.inward_or_grasp {x y : Assembly × List Token} (h : Turn limit x y) :
    Inward limit x y ∨ ∃ op s, Grasp op s x y := by
  obtain ⟨hmove, hstays⟩ := h
  cases hmove with
  | @takeBack op pending b b' ts hr =>
    have hdue : Due op ts := overdue_join.mp (hstays.mp rfl)
    obtain ⟨formulas, discarded⟩ := b
    rcases Built.reduce_ok hr with ⟨right, left, rest, -, -, rfl⟩ | ⟨hlt, rfl⟩
    · exact Or.inl ⟨turn_takeBack hdue hr, fun h => absurd rfl h⟩
    · match formulas, hlt with
      | [], _ => exact Or.inl ⟨turn_takeBack hdue hr, fun _ => rfl⟩
      | [s], _ => exact Or.inr ⟨op, s, .intro hdue⟩
  | operand hs => exact Or.inl ⟨⟨.operand hs, hstays⟩, fun h => absurd rfl h⟩
  | opening => exact Or.inl ⟨⟨.opening, hstays⟩, fun h => absurd rfl h⟩
  | closing => exact Or.inl ⟨⟨.closing, hstays⟩, fun h => absurd rfl h⟩
  | connective => exact Or.inl ⟨⟨.connective, hstays⟩, fun h => absurd rfl h⟩

/-- A path of turns does not grasp for anything, or there is a first grasp. -/
lemma Turns.inward_or_grasp {x z : Assembly × List Token} (h : Turns limit x z) :
    Inwards limit x z ∨
      ∃ op s p q, Inwards limit x p ∧ Grasp op s p q ∧ Turns limit q z := by
  induction h using Relation.ReflTransGen.head_induction_on with
  | refl => exact Or.inl .refl
  | @head x y hturn hrest ih =>
    rcases hturn.inward_or_grasp with hinward | ⟨op, s, hgrasp⟩
    · rcases ih with hinwards | ⟨op, s, p, q, hinwards, hgrasp, hturns⟩
      · exact Or.inl (.head hinward hinwards)
      · exact Or.inr ⟨op, s, p, q, .head hinward hinwards, hgrasp, hturns⟩
    · exact Or.inr ⟨op, s, x, y, .refl, hgrasp, hrest⟩

lemma Inwards.discarded_eq {x y : Assembly × List Token} (h : Inwards limit x y)
    (hx : x.1.built.formulas ≠ []) : y.1.built.discarded = x.1.built.discarded := by
  induction h with
  | refl => rfl
  | @tail y z hinwards hinward ih =>
    have hy : y.1.built.formulas ≠ [] := (Inwards.turns hinwards).formulas_ne_nil hx
    rw [← ih]
    by_contra hne
    exact hy (hinward.formulas_eq hne)

/-- All that is discarded without a grasp is discarded before an operand is read. -/
lemma Inwards.exists_unread {x z : Assembly × List Token} (h : Inwards limit x z)
    (hx : x.1.built.formulas = []) :
    ∃ y, Turns limit x y ∧ Turns limit y z ∧ operands y.2 = operands x.2 ∧
      z.1.built.discarded = y.1.built.discarded := by
  induction h using Relation.ReflTransGen.head_induction_on with
  | refl => exact ⟨z, .refl, .refl, rfl, rfl⟩
  | @head x x' hinward hrest ih =>
    by_cases hx' : x'.1.built.formulas = []
    · obtain ⟨y, hxy, hyz, hoperands, hdiscarded⟩ := ih hx'
      have hsame : operands x'.2 = operands x.2 := by
        have hconditions := hinward.turn.move.conditions
        rwa [Built.conditions_eq_nil_iff.mpr hx, Built.conditions_eq_nil_iff.mpr hx'] at hconditions
      exact ⟨y, .head hinward.turn hxy, hyz, hoperands.trans hsame, hdiscarded⟩
    · -- the first operand has just been read
      have hread : x'.1.built.discarded = x.1.built.discarded := by
        by_contra hne
        exact hx' ((hinward.turn.move.of_discarded hne).2.trans hx)
      have hturns : Turns limit x z := .head hinward.turn (Inwards.turns hrest)
      exact ⟨x, .refl, hturns, rfl, (Inwards.discarded_eq hrest hx').trans hread⟩

/-- Where no operand is left, a single formula stays as it is, and it does not matter which
formula it is. -/
lemma Turn.idle {pending : List Pending} {s : Sized} {discarded : List Connective}
    {ts : List Token} {y : Assembly × List Token}
    (h : Turn limit (⟨pending, ⟨[s], discarded⟩⟩, ts) y) (hts : operands ts = []) :
    ∃ pending' lost ts', y = (⟨pending', ⟨[s], lost ++ discarded⟩⟩, ts') ∧
      ∀ s' discarded', Turn limit (⟨pending, ⟨[s'], discarded'⟩⟩, ts)
        (⟨pending', ⟨[s'], lost ++ discarded'⟩⟩, ts') := by
  obtain ⟨hmove, hstays⟩ := h
  cases hmove with
  | @takeBack op pending b b' ts hr =>
    rcases Built.reduce_ok hr with ⟨right, left, rest, hf, -, rfl⟩ | ⟨-, rfl⟩
    · simp at hf
    · exact ⟨pending, [op], ts, rfl, fun s' discarded' => ⟨.takeBack rfl, hstays⟩⟩
  | operand _ => simp at hts
  | @opening pending b ts =>
    exact ⟨.group :: pending, [], ts, rfl, fun s' discarded' => ⟨.opening, hstays⟩⟩
  | @closing pending b ts =>
    exact ⟨pending, [], ts, rfl, fun s' discarded' => ⟨.closing, hstays⟩⟩
  | @connective op pending b ts =>
    exact ⟨.join op :: pending, [], ts, rfl, fun s' discarded' => ⟨.connective, hstays⟩⟩

lemma Turns.idle {pending : List Pending} {s : Sized} {discarded : List Connective}
    {ts : List Token} {y : Assembly × List Token}
    (h : Turns limit (⟨pending, ⟨[s], discarded⟩⟩, ts) y) (hts : operands ts = []) :
    ∃ pending' lost ts', y = (⟨pending', ⟨[s], lost ++ discarded⟩⟩, ts') ∧
      ∀ s' discarded', Turns limit (⟨pending, ⟨[s'], discarded'⟩⟩, ts)
        (⟨pending', ⟨[s'], lost ++ discarded'⟩⟩, ts') := by
  induction h with
  | refl => exact ⟨pending, [], ts, rfl, fun _ _ => .refl⟩
  | tail hturns hturn ih =>
    obtain ⟨pending', lost, ts', rfl, hpath⟩ := ih
    obtain ⟨pending'', lost', ts'', rfl, hlast⟩ := hturn.idle (Turns.operands_eq_nil hturns hts)
    refine ⟨pending'', lost' ++ lost, ts'', by simp, fun s' discarded' => ?_⟩
    have hstep := hlast s' (lost ++ discarded')
    rw [← List.append_assoc] at hstep
    exact (hpath s' discarded').tail hstep

/-! ## Two groups -/

/-- The tokens `ts` and `us`, each in a group, joined by `op`. -/
def twoGroups (op : Connective) (ts us : List Token) : List Token :=
  .opening :: (ts ++ .closing :: .connective op :: .opening :: (us ++ [.closing]))

/-- The formula `f` is the first that is built of `ts`. -/
def Writes (limit : Nat) (ts : List Token) (f : Formula) : Prop :=
  ∃ b s, assemble limit ts = .ok b ∧ b.formulas.getLast? = some s ∧ s.formula = f

/-- When `ts` are read alone, nothing is discarded between the point `x`, where no operand has
been read, and the point `y`, where none is left.  Behind `y` the connectives `late` are
discarded, newest first. -/
structure DiscardsLate (limit : Nat) (ts : List Token) (x y : Assembly × List Token)
    (late : List Connective) : Prop where
  before : Turns limit (start, ts) x
  between : Turns limit x y
  behind : ∃ b, Turns limit y (⟨[], b⟩, []) ∧ b.discarded = late ++ y.1.built.discarded
  unread : operands x.2 = operands ts
  read : operands y.2 = []
  discarded_eq : y.1.built.discarded = x.1.built.discarded

/-- When `ts` are read alone, no connective is discarded between the first operand and the last
one, and the first that is discarded behind the last operand, if any, is `op`. -/
def SelfContained (limit : Nat) (op : Connective) (ts : List Token) : Prop :=
  ∃ x y late, DiscardsLate limit ts x y late ∧ ∀ op' ∈ late.getLast?, op' = op

variable {op : Connective} {ts us : List Token} {s₁ s₂ : Sized} {d₁ d₂ : List Connective}

/-- Tokens of which nothing is discarded keep to themselves, whatever joins them. -/
lemma selfContained_of_discarded_eq_nil {b : Built} (h : assemble limit ts = .ok b)
    (hdiscarded : b.discarded = []) : SelfContained limit op ts := by
  refine ⟨(start, ts), (⟨[], b⟩, []), [], ?_, by simp⟩
  exact ⟨.refl, turns_of_run h, ⟨b, .refl, rfl⟩, rfl, rfl, hdiscarded⟩

/-- The first group leaves its formula and `op` to the second one. -/
lemma turns_second (h₁ : assemble limit ts = .ok ⟨[s₁], d₁⟩) :
    Turns limit (start, twoGroups op ts us)
      (inGroup ⟨[.join op], ⟨[s₁], d₁⟩⟩ [] (start, us)) := by
  have hfirst : Turns limit (start, twoGroups op ts us)
      (⟨[], ⟨[s₁], d₁ ++ []⟩⟩, .connective op :: .opening :: (us ++ [.closing])) :=
    turns_group start rfl h₁
  rw [List.append_nil] at hfirst
  refine (hfirst.tail (turn_read .connective ?_)).tail (turn_open _ us [])
  rintro ⟨op', pending, heq, -⟩
  cases heq

lemma turns_second_of_inwards (h₁ : assemble limit ts = .ok ⟨[s₁], d₁⟩)
    {x : Assembly × List Token} (h : Inwards limit (start, us) x) :
    Turns limit (start, twoGroups op ts us) (inGroup ⟨[.join op], ⟨[s₁], d₁⟩⟩ [] x) :=
  (turns_second h₁).trans (Inwards.lift ⟨[.join op], ⟨[s₁], d₁⟩⟩ (Nat.lt_succ_self 1) h)

/-- What is built when all tokens have been read and all connectives taken back. -/
lemma Turns.assemble_eq {b : Built} (h : Turns limit (start, ts) (⟨[], b⟩, [])) :
    assemble limit ts = .ok b :=
  h.run_eq

lemma writes_of_inwards (h₁ : assemble limit ts = .ok ⟨[s₁], d₁⟩)
    (hdepth : 1 + max s₁.depth s₂.depth ≤ limit)
    (h : Inwards limit (start, us) (⟨[], ⟨[s₂], d₂⟩⟩, [])) :
    Writes limit (twoGroups op ts us) (.join op s₁.formula s₂.formula) := by
  have hclosed : Turns limit (start, twoGroups op ts us)
      (⟨[.join op], ⟨[s₂, s₁], d₂ ++ d₁⟩⟩, []) :=
    (turns_second_of_inwards h₁ h).tail (turn_close _ [] ⟨[s₂], d₂⟩)
  have hreduce : Built.reduce limit op ⟨[s₂, s₁], d₂ ++ d₁⟩ =
      .ok ⟨[⟨.join op s₁.formula s₂.formula, 1 + max s₁.depth s₂.depth⟩], d₂ ++ d₁⟩ :=
    if_neg (Nat.not_lt.mpr hdepth)
  have hend := hclosed.tail (turn_takeBack trivial hreduce)
  exact ⟨_, _, Turns.assemble_eq hend, rfl, rfl⟩

lemma selfContained_of_inwards {b : Built} (h : Inwards limit (start, us) (⟨[], b⟩, [])) :
    SelfContained limit op us := by
  obtain ⟨x, hx, hend, hunread, hdiscarded⟩ := h.exists_unread rfl
  exact ⟨x, (⟨[], b⟩, []), [], ⟨hx, hend, ⟨b, .refl, rfl⟩, hunread, rfl, hdiscarded⟩, by simp⟩

/-! ## When the second group grasps for the first -/

section Grasp

variable {op' : Connective} {s : Sized} {p q : Assembly × List Token}
  {older : List Pending}

/-- What the connective joins that grasps: the first group, and all there is of the second. -/
def grasped (op' : Connective) (s₁ s : Sized) : Sized :=
  ⟨.join op' s₁.formula s.formula, 1 + max s₁.depth s.depth⟩

lemma Grasp.turn_inGroup (h : Grasp op' s p q) (hdepth : 1 + max s₁.depth s.depth ≤ limit) :
    Turn limit (inGroup ⟨older, ⟨[s₁], d₁⟩⟩ after p)
      (inGroup ⟨older, ⟨[], d₁⟩⟩ after
        (⟨q.1.pending, ⟨[grasped op' s₁ s], p.1.built.discarded⟩⟩, q.2)) := by
  obtain @⟨pending, discarded, vs, hdue⟩ := h
  exact turn_takeBack ((due_append_closing op' vs after).mpr hdue) (if_neg (Nat.not_lt.mpr hdepth))

lemma Grasp.depth_le_of_run (h : Grasp op' s p q) {b : Built}
    (hrun : (inGroup ⟨older, ⟨[s₁], d₁⟩⟩ after p).1.run limit
      (inGroup ⟨older, ⟨[s₁], d₁⟩⟩ after p).2 = .ok b) :
    1 + max s₁.depth s.depth ≤ limit := by
  obtain @⟨pending, discarded, vs, hdue⟩ := h
  by_contra hdepth
  have hstuck : Stuck limit (inGroup ⟨older, ⟨[s₁], d₁⟩⟩ after
      (⟨.join op' :: pending, ⟨[s], discarded⟩⟩, vs)) .tooDeep :=
    .tooDeep ((due_append_closing op' vs after).mpr hdue) (Nat.lt_of_not_le hdepth)
  rw [hstuck.run_eq, Built.stop] at hrun
  cases hrun

lemma Grasp.discarded_eq (h : Grasp op' s p q) :
    q.1.built.discarded = op' :: p.1.built.discarded := by
  cases h
  rfl

/-- What has been read when a connective grasps is all in the formula beside it. -/
lemma Grasp.conditions_eq (hp : Turns limit (start, us) p) (hgrasp : Grasp op' s p q) :
    s.formula.conditions ++ operands p.2 = operands us := by
  have hconditions := hp.conditions_eq
  cases hgrasp
  simpa [Built.conditions] using hconditions

/-- The join with the first group stays leftmost in all that is built. -/
lemma eq_of_writes_of_grasp (h₁ : assemble limit ts = .ok ⟨[s₁], d₁⟩)
    (hp : Inwards limit (start, us) p) (hgrasp : Grasp op' s p q) {f : Formula}
    (h : Writes limit (twoGroups op ts us) (.join op s₁.formula f)) :
    op' = op ∧ s.formula = f := by
  obtain ⟨b, t, hb, ht, htf⟩ := h
  have hinner : Turns limit (start, twoGroups op ts us)
      (inGroup ⟨[.join op], ⟨[s₁], d₁⟩⟩ [] p) := turns_second_of_inwards h₁ hp
  have hrun := hinner.run_eq.symm.trans hb
  have hjoin : Turn limit (inGroup ⟨[.join op], ⟨[s₁], d₁⟩⟩ [] p) _ :=
    hgrasp.turn_inGroup (hgrasp.depth_le_of_run hrun)
  rw [hjoin.run_eq] at hrun
  obtain ⟨t', ht', hleft⟩ := run_keeps (P := fun x => ∃ t, x.1.built.formulas.getLast? = some t ∧
      (grasped op' s₁ s).formula.Leftmost t.formula)
    (fun _ _ hmove => hmove.leftmost) hrun ⟨_, rfl, .refl⟩
  obtain rfl : t = t' := Option.some.inj (ht.symm.trans ht')
  rw [htf] at hleft
  exact hleft.join_eq

lemma writes_of_grasp (h₁ : assemble limit ts = .ok ⟨[s₁], d₁⟩)
    (hdepth : 1 + max s₁.depth s₂.depth ≤ limit) (hp : Inwards limit (start, us) p)
    (hgrasp : Grasp op s p q) (hq : Turns limit q (⟨[], ⟨[s₂], d₂⟩⟩, []))
    (hend : operands p.2 = []) :
    Writes limit (twoGroups op ts us) (.join op s₁.formula s₂.formula) := by
  have hinner : Turns limit (start, twoGroups op ts us)
      (inGroup ⟨[.join op], ⟨[s₁], d₁⟩⟩ [] p) := turns_second_of_inwards h₁ hp
  have hjoin : 1 + max s₁.depth s.depth ≤ limit →
      Turn limit (inGroup ⟨[.join op], ⟨[s₁], d₁⟩⟩ [] p) _ := hgrasp.turn_inGroup
  obtain @⟨pending, discarded, vs, hdue⟩ := hgrasp
  -- behind the last operand nothing is joined any more
  obtain ⟨pending', lost, ts', heq, hidle⟩ := hq.idle hend
  simp only [Prod.mk.injEq, Assembly.mk.injEq, Built.mk.injEq, List.cons.injEq, and_true] at heq
  obtain ⟨⟨rfl, rfl, -⟩, rfl⟩ := heq
  have hrest : Turns limit
      (inGroup ⟨[.join op], ⟨[], d₁⟩⟩ [] (⟨pending, ⟨[grasped op s₁ s₂], discarded⟩⟩, vs))
      (inGroup ⟨[.join op], ⟨[], d₁⟩⟩ [] (⟨[], ⟨[grasped op s₁ s₂], lost ++ discarded⟩⟩, [])) :=
    Turns.lift rfl (hidle _ _)
  have hclosed := ((hinner.tail (hjoin hdepth)).trans hrest).tail (turn_close _ _ _)
  have hlast := hclosed.tail (turn_takeBack trivial (Built.reduce_of_lt (Nat.lt_succ_self 1)))
  exact ⟨_, _, Turns.assemble_eq hlast, rfl, rfl⟩

lemma selfContained_of_grasp {b : Built} (hp : Inwards limit (start, us) p)
    (hgrasp : Grasp op s p q) (hq : Turns limit q (⟨[], b⟩, [])) (hend : operands p.2 = []) :
    SelfContained limit op us := by
  obtain ⟨x, hx, hxp, hunread, hdiscarded⟩ := hp.exists_unread rfl
  obtain ⟨later, hlater⟩ := hq.discarded_suffix
  rw [hgrasp.discarded_eq] at hlater
  have hlate : b.discarded = (later ++ [op]) ++ p.1.built.discarded := by
    rw [List.append_assoc]
    exact hlater.symm
  refine ⟨x, p, later ++ [op], ?_, by simp⟩
  exact ⟨hx, hxp, ⟨b, .head hgrasp.turn hq, hlate⟩, hunread, hend, hdiscarded⟩

variable {x y : Assembly × List Token} {late : List Connective}

lemma DiscardsLate.turns_grasp (h : DiscardsLate limit us x y late)
    (hp : Turns limit (start, us) p) (hgrasp : Grasp op' s p q) : Turns limit x p := by
  have hformulas : p.1.built.formulas ≠ [] := by
    cases hgrasp
    simp
  rcases h.before.total hp with hxp | hpx
  · exact hxp
  · -- where no operand has been read, there is no formula
    have hconditions := h.before.conditions_eq
    rw [h.unread, List.append_left_eq_self, Built.conditions_eq_nil_iff] at hconditions
    exact absurd hconditions (hpx.formulas_ne_nil hformulas)

/-- Between the first operand and the last one nothing grasps. -/
lemma DiscardsLate.turns_late_grasp (h : DiscardsLate limit us x y late)
    (hp : Turns limit (start, us) p) (hgrasp : Grasp op' s p q) : Turns limit y p := by
  rcases Turns.total (h.before.trans h.between) hp with hyp | hpy
  · exact hyp
  · rcases hpy.cases_head with rfl | ⟨q', hturn, hqy⟩
    · exact .refl
    · -- what is discarded at `p` is not discarded at `x`, but at `y`
      obtain rfl : q = q' := hgrasp.turn.unique hturn
      have hxp := (h.turns_grasp hp hgrasp).discarded_suffix.length_le
      have hqy := (Turns.discarded_suffix hqy).length_le
      rw [hgrasp.discarded_eq, h.discarded_eq, List.length_cons] at hqy
      omega

/-- Nothing is discarded between the last operand and the first grasp. -/
lemma DiscardsLate.discarded_grasp (h : DiscardsLate limit us x y late)
    (hp : Inwards limit (start, us) p) (hgrasp : Grasp op' s p q) :
    y.1.built.discarded = p.1.built.discarded := by
  have hturns : Turns limit (start, us) p := Inwards.turns hp
  have hyp := h.turns_late_grasp hturns hgrasp
  -- all that is discarded at `p` is discarded at a point `x'` with no operand read
  obtain ⟨x', hx', -, hunread', hdiscarded'⟩ := hp.exists_unread rfl
  have hxy' : Turns limit x' y := by
    rcases hx'.total (h.before.trans h.between) with hxy' | hyx'
    · exact hxy'
    · have hnone : operands us = [] := hunread'.symm.trans (hyx'.operands_eq_nil h.read)
      have hconditions := hgrasp.conditions_eq hturns
      rw [hyp.operands_eq_nil h.read, hnone, List.append_nil] at hconditions
      exact absurd hconditions s.formula.conditions_ne_nil
  refine hyp.discarded_suffix.eq_of_length_le ?_
  rw [hdiscarded']
  exact hxy'.discarded_suffix.length_le

/-- If tokens that grasp are self-contained, then `op` is the first to grasp, behind the last
operand. -/
lemma eq_of_selfContained_of_grasp {b : Built} (hp : Inwards limit (start, us) p)
    (hgrasp : Grasp op' s p q) (hq : Turns limit q (⟨[], b⟩, [])) (h : SelfContained limit op us) :
    operands p.2 = [] ∧ op' = op := by
  obtain ⟨x, y, late, hlate, hop⟩ := h
  have hturns : Turns limit (start, us) p := Inwards.turns hp
  have hend : operands p.2 = [] :=
    (hlate.turns_late_grasp hturns hgrasp).operands_eq_nil hlate.read
  refine ⟨hend, ?_⟩
  obtain ⟨b', hb', hdiscarded⟩ := hlate.behind
  have hsame : b' = b := by
    have h' : assemble limit us = .ok b' :=
      Turns.assemble_eq ((hlate.before.trans hlate.between).trans hb')
    have h'' : assemble limit us = .ok b :=
      Turns.assemble_eq ((hturns.tail hgrasp.turn).trans hq)
    exact Except.ok.inj (h'.symm.trans h'')
  -- `op'` is what is discarded next to what `y` and `p` have discarded
  obtain ⟨later, hlater⟩ := hq.discarded_suffix
  have hfirst : late ++ p.1.built.discarded = (later ++ [op']) ++ p.1.built.discarded := by
    rw [hgrasp.discarded_eq] at hlater
    rw [← hlate.discarded_grasp hp hgrasp, ← hdiscarded, hsame, hlate.discarded_grasp hp hgrasp,
      List.append_assoc]
    exact hlater.symm
  obtain rfl : late = later ++ [op'] := List.append_cancel_right hfirst
  exact hop op' (by simp)

end Grasp

/-- **Groups side by side.**  Two groups that are joined by `op`, each of them a single formula
when it is read alone, are the join of these formulas if and only if the second one is
self-contained. -/
theorem writes_twoGroups_iff (h₁ : assemble limit ts = .ok ⟨[s₁], d₁⟩)
    (h₂ : assemble limit us = .ok ⟨[s₂], d₂⟩) (hdepth : 1 + max s₁.depth s₂.depth ≤ limit) :
    Writes limit (twoGroups op ts us) (.join op s₁.formula s₂.formula) ↔
      SelfContained limit op us := by
  rcases (turns_of_run h₂).inward_or_grasp with h | ⟨op', s, p, q, hp, hgrasp, hq⟩
  · exact iff_of_true (writes_of_inwards h₁ hdepth h) (selfContained_of_inwards h)
  · constructor
    · intro hwrites
      obtain ⟨rfl, hs⟩ := eq_of_writes_of_grasp h₁ hp hgrasp hwrites
      have hend : operands p.2 = [] := by
        have hconditions := hgrasp.conditions_eq (Inwards.turns hp)
        have hall : s₂.formula.conditions = operands us := by
          rw [← run_conditions h₂]
          simp [Built.conditions]
        rw [← hall, hs, List.append_right_eq_self] at hconditions
        exact hconditions
      exact selfContained_of_grasp hp hgrasp hq hend
    · intro hself
      obtain ⟨hend, rfl⟩ := eq_of_selfContained_of_grasp hp hgrasp hq hself
      exact writes_of_grasp h₁ hdepth hp hgrasp hq hend

end Assembly
end Verdict.Rule
