import Mathlib.Logic.Relation
import Verdict.Proofs.Rule.Grammar
/-
The assembly as a machine that takes turns.

A path of moves (`Assembly.Move`) may take connectives back at any time.  A run takes them
back only when what is read next demands it (`Due`), and then before anything else: of all
moves it makes the one that is its turn (`Turn`).  So turns are the small steps of a run:

* there is one turn at a time, and the points of a run are in order (`Turn.unique`,
  `Turns.total`);
* a turn does not change what the run comes to (`Turn.run_eq`);
* where no turn is left, everything is read and taken back, or one of four things stands in
  the way, and the run fails for just that reason (`Stuck`, `turn_or_end`);
* turns come to an end (`exists_turns`), and on the way to it they pass the state behind each
  token (`turns_of_advance`).

What a run does, from its first token to its success or failure, can therefore be told turn
by turn, and what every move keeps holds of all that it comes to (`run_keeps`).
-/
namespace Verdict.Rule.Assembly

variable {limit : Nat}

/-- The connective `op` that waits has to be taken back before `ts` is read. -/
def Due (op : Connective) : List Token → Prop
  | [] => True
  | .closing :: _ => True
  | .connective next :: _ => next.precedence ≤ op.precedence
  | .opening :: _ => False
  | .operand _ :: _ => False

/-- The newest that waits is a connective that has to be taken back now. -/
def Overdue (x : Assembly × List Token) : Prop :=
  ∃ op pending, x.1.pending = .join op :: pending ∧ Due op x.2

/-- The move that a run makes: it reads no token while a connective is overdue, and takes
none back that is not. -/
structure Turn (limit : Nat) (x y : Assembly × List Token) : Prop where
  move : Move limit x y
  stays_iff : x.2 = y.2 ↔ Overdue x

/-- A path of turns. -/
abbrev Turns (limit : Nat) : Assembly × List Token → Assembly × List Token → Prop :=
  Relation.ReflTransGen (Turn limit)

/-- What every move keeps, a path of turns keeps. -/
lemma Turns.keeps {P : Assembly × List Token → Prop} (hmove : ∀ x y, Move limit x y → P x → P y)
    {x y : Assembly × List Token} (h : Turns limit x y) (hx : P x) : P y := by
  induction h with
  | refl => exact hx
  | tail _ hxy ih => exact hmove _ _ hxy.move ih

/-- Along the turns of a run, each operand is built or left to be read. -/
lemma Turns.conditions_eq {ts : List Token} {x : Assembly × List Token}
    (h : Turns limit (start, ts) x) :
    x.1.built.conditions ++ Token.operands x.2 = Token.operands ts :=
  h.keeps (P := fun x => x.1.built.conditions ++ Token.operands x.2 = Token.operands ts)
    (fun _ _ hmove hx => hmove.conditions.trans hx) (by simp [start, Built.conditions])

lemma Turns.wellSized (hlimit : 1 ≤ limit) {ts : List Token} {x : Assembly × List Token}
    (h : Turns limit (start, ts) x) : WellSized limit x.1.built :=
  h.keeps (P := fun x => WellSized limit x.1.built) (fun _ _ hxy hx => hxy.wellSized hlimit hx)
    (by simp [start, WellSized])

/-! ## Which move is a turn -/

lemma overdue_join {op : Connective} {pending : List Pending} {b : Built} {ts : List Token} :
    Overdue (⟨.join op :: pending, b⟩, ts) ↔ Due op ts := by
  constructor
  · rintro ⟨op', pending', heq, hdue⟩
    obtain ⟨rfl, -⟩ : op = op' ∧ pending = pending' := by simpa using heq
    exact hdue
  · intro hdue
    exact ⟨op, pending, rfl, hdue⟩

lemma turn_takeBack {op : Connective} {pending : List Pending} {b b' : Built} {ts : List Token}
    (hdue : Due op ts) (h : b.reduce limit op = .ok b') :
    Turn limit (⟨.join op :: pending, b⟩, ts) (⟨pending, b'⟩, ts) :=
  ⟨.takeBack h, iff_of_true rfl (overdue_join.mpr hdue)⟩

/-- A move that reads a token is a turn, unless a connective is overdue. -/
lemma turn_read {a a' : Assembly} {t : Token} {ts : List Token}
    (hmove : Move limit (a, t :: ts) (a', ts)) (hcalm : ¬ Overdue (a, t :: ts)) :
    Turn limit (a, t :: ts) (a', ts) :=
  ⟨hmove, iff_of_false (List.cons_ne_self t ts) hcalm⟩

/-- There is one turn at a time. -/
theorem Turn.unique {x y z : Assembly × List Token} (hy : Turn limit x y) (hz : Turn limit x z) :
    y = z := by
  obtain ⟨hmove, hstays⟩ := hy
  obtain ⟨hmove', hstays'⟩ := hz
  cases hmove with
  | takeBack hr =>
    -- a connective is overdue, and no token is read
    have hover := hstays.mp rfl
    cases hmove' with
    | takeBack hr' =>
      rw [hr, Except.ok.injEq] at hr'
      rw [hr']
    | _ => exact absurd (hstays'.mpr hover) (List.cons_ne_self _ _)
  | operand _ =>
    cases hmove' with
    | takeBack hr' => exact absurd (hstays.mpr (hstays'.mp rfl)) (List.cons_ne_self _ _)
    | operand _ => rfl
  | opening =>
    cases hmove' with
    | takeBack hr' => exact absurd (hstays.mpr (hstays'.mp rfl)) (List.cons_ne_self _ _)
    | opening => rfl
  | closing =>
    cases hmove' with
    | closing => rfl
  | connective =>
    cases hmove' with
    | takeBack hr' => exact absurd (hstays.mpr (hstays'.mp rfl)) (List.cons_ne_self _ _)
    | connective => rfl

/-- Of two points that a run comes to, one is behind the other. -/
lemma Turns.total {x y z : Assembly × List Token} (hy : Turns limit x y) (hz : Turns limit x z) :
    Turns limit y z ∨ Turns limit z y :=
  Relation.ReflTransGen.total_of_right_unique (fun _ _ _ => Turn.unique) hy hz

/-! ## From token to token -/

/-- Taking connectives back is a path of turns, if what is read next demands it; behind it no
more are demanded. -/
lemma turns_of_unwind {due : Connective → Bool} {pending pending' : List Pending} {b b' : Built}
    (ts : List Token) (hdue : ∀ op, due op = true → Due op ts)
    (h : b.unwind limit due pending = .ok (pending', b')) :
    Turns limit (⟨pending, b⟩, ts) (⟨pending', b'⟩, ts) ∧ Calm due pending' := by
  induction pending generalizing b with
  | nil =>
    simp only [Built.unwind, Except.ok.injEq, Prod.mk.injEq] at h
    obtain ⟨rfl, rfl⟩ := h
    exact ⟨.refl, by simp [Calm]⟩
  | cons entry pending ih =>
    cases entry with
    | group =>
      simp only [Built.unwind, Except.ok.injEq, Prod.mk.injEq] at h
      obtain ⟨rfl, rfl⟩ := h
      exact ⟨.refl, by simp [Calm]⟩
    | join op =>
      rw [Built.unwind] at h
      split at h
      · rename_i hop
        cases hr : b.reduce limit op with
        | error s => simp [hr] at h
        | ok b₁ =>
          simp only [hr] at h
          obtain ⟨hturns, hcalm⟩ := ih h
          exact ⟨.head (turn_takeBack (hdue op hop) hr) hturns, hcalm⟩
      · rename_i hop
        simp only [Except.ok.injEq, Prod.mk.injEq] at h
        obtain ⟨rfl, rfl⟩ := h
        refine ⟨.refl, fun op' rest heq => ?_⟩
        obtain ⟨rfl, -⟩ : op = op' ∧ pending = rest := by simpa using heq
        simpa using hop

/-- Reading a token is a path of turns. -/
lemma turns_of_step {a a' : Assembly} {t : Token} (ts : List Token)
    (h : a.step limit t = .ok a') : Turns limit (a, t :: ts) (a', ts) := by
  obtain ⟨pending, formulas, discarded⟩ := a
  cases t with
  | opening =>
    simp only [step, Except.ok.injEq] at h
    subst h
    refine .single (turn_read .opening ?_)
    rintro ⟨op, rest, -, hdue⟩
    exact hdue
  | closing =>
    simp only [step] at h
    split at h
    · rename_i pending' b' hu
      simp only [Except.ok.injEq] at h
      subst h
      obtain ⟨hturns, -⟩ := turns_of_unwind (.closing :: ts) (fun _ _ => trivial) hu
      refine hturns.tail (turn_read .closing ?_)
      rintro ⟨op, rest, hjoin, -⟩
      simp at hjoin
    · simp [Built.stop] at h
    · simp at h
  | connective op =>
    simp only [step] at h
    split at h
    · rename_i pending' b' hu
      simp only [Except.ok.injEq] at h
      subst h
      obtain ⟨hturns, hcalm⟩ := turns_of_unwind (.connective op :: ts)
        (fun op' hop => show op.precedence ≤ op'.precedence from of_decide_eq_true hop) hu
      refine hturns.tail (turn_read .connective ?_)
      rintro ⟨op', rest, hpending, hdue⟩
      have hcalm' : ¬ op.precedence ≤ op'.precedence :=
        of_decide_eq_false (hcalm op' rest hpending)
      exact hcalm' hdue
    · simp at h
  | operand text =>
    simp only [step] at h
    split at h
    · rename_i parts hs
      simp only [Except.ok.injEq] at h
      subst h
      refine .single (turn_read (.operand hs) ?_)
      rintro ⟨op, rest, -, hdue⟩
      exact hdue
    · simp [Built.stop] at h

/-- Between any two tokens a run is at one of its points. -/
lemma turns_of_advance {a a' : Assembly} {us : List Token} (vs : List Token)
    (h : a.advance limit us = .ok a') : Turns limit (a, us ++ vs) (a', vs) := by
  induction us generalizing a with
  | nil =>
    obtain rfl : a = a' := by simpa using h
    exact .refl
  | cons t us ih =>
    rw [advance_cons] at h
    cases hs : a.step limit t with
    | error s => simp [hs] at h
    | ok a₁ =>
      simp only [hs, ok_bind] at h
      exact (turns_of_step (us ++ vs) hs).trans (ih h)

/-! ## What a run comes to -/

lemma run_cons (a : Assembly) (t : Token) (ts : List Token) :
    a.run limit (t :: ts) = a.step limit t >>= fun a' => a'.run limit ts := by
  rw [run]
  cases a.step limit t <;> rfl

lemma unwind_join (due : Connective → Bool) {op : Connective} (hdue : due op = true)
    (pending : List Pending) (b : Built) :
    b.unwind limit due (.join op :: pending) =
      b.reduce limit op >>= fun b' => b'.unwind limit due pending := by
  rw [Built.unwind, if_pos hdue]
  cases b.reduce limit op <;> rfl

/-- Whatever demands that a connective is taken back, the run goes on behind that. -/
lemma run_of_due {op : Connective} {ts : List Token} (hdue : Due op ts) (pending : List Pending)
    (b : Built) :
    run limit ⟨.join op :: pending, b⟩ ts =
      b.reduce limit op >>= fun b' => run limit ⟨pending, b'⟩ ts := by
  match ts, hdue with
  | [], _ =>
    simp only [run, finish_eq]
    rw [unwind_join (fun _ => true) rfl, bind_assoc]
  | .closing :: ts, _ =>
    simp only [run_cons, step_closing]
    rw [unwind_join (fun _ => true) rfl]
    simp only [bind_assoc]
  | .connective next :: ts, hdue =>
    have hdue' : decide (next.precedence ≤ op.precedence) = true := decide_eq_true hdue
    simp only [run_cons, step_connective]
    rw [unwind_join (next.precedence ≤ ·.precedence) hdue']
    simp only [bind_assoc]

lemma run_connective_of_calm {op : Connective} {pending : List Pending} {b : Built}
    {ts : List Token} (h : ¬ Overdue (⟨pending, b⟩, .connective op :: ts)) :
    run limit ⟨pending, b⟩ (.connective op :: ts) = run limit ⟨.join op :: pending, b⟩ ts := by
  have hcalm : Calm (op.precedence ≤ ·.precedence) pending := by
    rintro op' rest rfl
    rw [overdue_join] at h
    exact decide_eq_false h
  rw [run_cons, step_connective, unwind_of_calm hcalm]
  rfl

/-- A turn does not change what the run comes to. -/
theorem Turn.run_eq {x y : Assembly × List Token} (h : Turn limit x y) :
    x.1.run limit x.2 = y.1.run limit y.2 := by
  obtain ⟨hmove, hstays⟩ := h
  cases hmove with
  | takeBack hr =>
    rw [run_of_due (overdue_join.mp (hstays.mp rfl)), hr]
    rfl
  | operand hs => rw [run_cons, step, hs]; rfl
  | opening => rfl
  | closing => rfl
  | connective => exact run_connective_of_calm (mt hstays.mpr (List.cons_ne_self _ _))

lemma Turns.run_eq {x y : Assembly × List Token} (h : Turns limit x y) :
    x.1.run limit x.2 = y.1.run limit y.2 := by
  induction h with
  | refl => rfl
  | tail _ hturn ih => rw [ih, hturn.run_eq]

/-! ## The end of a run -/

/-- Where no turn is left for one of these faults. -/
inductive Stuck (limit : Nat) : Assembly × List Token → Fault → Prop
  | condition {text : String} {error : ConditionError} {a : Assembly} {ts : List Token} :
      Condition.split text = .error error →
      Stuck limit (a, .operand text :: ts) (.malformedCondition error)
  /-- A group is closed that was not opened. -/
  | unopened {b : Built} {ts : List Token} :
      Stuck limit (⟨[], b⟩, .closing :: ts) .unbalancedParentheses
  /-- A group is still open at the end. -/
  | unclosed {pending : List Pending} {b : Built} :
      Stuck limit (⟨.group :: pending, b⟩, []) .unbalancedParentheses
  | tooDeep {op : Connective} {pending : List Pending} {right left : Sized} {rest : List Sized}
      {discarded : List Connective} {ts : List Token} :
      Due op ts → limit < 1 + max left.depth right.depth →
      Stuck limit (⟨.join op :: pending, ⟨right :: left :: rest, discarded⟩⟩, ts) .tooDeep

/-- A run that is stuck fails, with the fault that it is stuck for. -/
lemma Stuck.run_eq {x : Assembly × List Token} {fault : Fault} (h : Stuck limit x fault) :
    x.1.run limit x.2 = x.1.built.stop fault := by
  cases h with
  | condition hs => rw [run_cons, step, hs]; rfl
  | unopened => rfl
  | unclosed => rfl
  | tooDeep hdue hdeep =>
    rw [run_of_due hdue, Built.reduce]
    simp only [if_pos hdeep]
    rfl

/-- Taking back an overdue connective is a turn, or the join has too many levels. -/
lemma turn_or_stuck_of_due {op : Connective} {ts : List Token} (hdue : Due op ts)
    (pending : List Pending) (b : Built) :
    (∃ y, Turn limit (⟨.join op :: pending, b⟩, ts) y) ∨
      ∃ fault, Stuck limit (⟨.join op :: pending, b⟩, ts) fault := by
  obtain ⟨formulas, discarded⟩ := b
  match formulas with
  | [] => exact Or.inl ⟨_, turn_takeBack hdue rfl⟩
  | [s] => exact Or.inl ⟨_, turn_takeBack hdue rfl⟩
  | right :: left :: rest =>
    by_cases hdeep : limit < 1 + max left.depth right.depth
    · exact Or.inr ⟨_, .tooDeep hdue hdeep⟩
    · have hreduce : Built.reduce limit op ⟨right :: left :: rest, discarded⟩ =
          .ok ⟨⟨.join op left.formula right.formula, 1 + max left.depth right.depth⟩ :: rest,
            discarded⟩ :=
        if_neg hdeep
      exact Or.inl ⟨_, turn_takeBack hdue hreduce⟩

/-- There is always a turn, but at the end of all tokens or where the run is stuck. -/
theorem turn_or_end (limit : Nat) (x : Assembly × List Token) :
    (∃ b, x = (⟨[], b⟩, [])) ∨ (∃ y, Turn limit x y) ∨ ∃ fault, Stuck limit x fault := by
  by_cases hover : Overdue x
  · obtain ⟨⟨pending, b⟩, ts⟩ := x
    obtain ⟨op, rest, heq, hdue⟩ := hover
    obtain rfl : pending = .join op :: rest := heq
    exact Or.inr (turn_or_stuck_of_due hdue rest b)
  · obtain ⟨⟨pending, b⟩, ts⟩ := x
    cases ts with
    | nil =>
      match pending with
      | [] => exact Or.inl ⟨b, rfl⟩
      | .group :: rest => exact Or.inr (Or.inr ⟨_, .unclosed⟩)
      | .join op :: rest => exact absurd ⟨op, rest, rfl, trivial⟩ hover
    | cons t ts =>
      refine Or.inr ?_
      cases t with
      | opening => exact Or.inl ⟨_, turn_read .opening hover⟩
      | connective op => exact Or.inl ⟨_, turn_read .connective hover⟩
      | operand text =>
        cases hs : Condition.split text with
        | ok parts => exact Or.inl ⟨_, turn_read (.operand hs) hover⟩
        | error error => exact Or.inr ⟨_, .condition hs⟩
      | closing =>
        match pending with
        | [] => exact Or.inr ⟨_, .unopened⟩
        | .group :: rest => exact Or.inl ⟨_, turn_read .closing hover⟩
        | .join op :: rest => exact absurd ⟨op, rest, rfl, trivial⟩ hover

/-- How much there is to do: a token may be read and then taken back. -/
def size (x : Assembly × List Token) : Nat := x.1.pending.length + 2 * x.2.length

lemma Move.size_lt {x y : Assembly × List Token} (h : Move limit x y) : size y < size x := by
  cases h <;> simp only [size, List.length_cons] <;> omega

/-- Every run takes turns until it succeeds or is stuck. -/
theorem exists_turns (limit : Nat) (x : Assembly × List Token) :
    ∃ y, Turns limit x y ∧ ((∃ b, y = (⟨[], b⟩, [])) ∨ ∃ fault, Stuck limit y fault) := by
  induction hsize : size x using Nat.strongRecOn generalizing x with
  | ind n ih =>
    rcases turn_or_end limit x with hend | ⟨y, hturn⟩ | hstuck
    · exact ⟨x, .refl, Or.inl hend⟩
    · obtain ⟨z, hturns, hend⟩ := ih (size y) (hsize ▸ hturn.move.size_lt) y rfl
      exact ⟨z, .head hturn hturns, hend⟩
    · exact ⟨x, .refl, Or.inr hstuck⟩

/-- A run that succeeds takes turns until everything is read and taken back. -/
theorem turns_of_run {a : Assembly} {ts : List Token} {b : Built} (h : a.run limit ts = .ok b) :
    Turns limit (a, ts) (⟨[], b⟩, []) := by
  obtain ⟨y, hturns, ⟨b', rfl⟩ | ⟨fault, hstuck⟩⟩ := exists_turns limit (a, ts)
  · have hrun : a.run limit ts = .ok b' := hturns.run_eq
    obtain rfl : b' = b := Except.ok.inj (hrun.symm.trans h)
    exact hturns
  · have hrun : a.run limit ts = y.1.built.stop fault := hturns.run_eq.trans hstuck.run_eq
    rw [h] at hrun
    simp [Built.stop] at hrun

/-! ## What has been built -/

/-- What every move keeps, a run keeps. -/
theorem run_keeps {P : Assembly × List Token → Prop} (hmove : ∀ x y, Move limit x y → P x → P y)
    {a : Assembly} {ts : List Token} {b : Built} (h : a.run limit ts = .ok b) (ha : P (a, ts)) :
    P (⟨[], b⟩, []) :=
  (turns_of_run h).keeps hmove ha

/-- Nothing is lost and nothing is exchanged: the conditions that have been built are
the operands that were read. -/
theorem run_conditions {ts : List Token} {b : Built} (h : assemble limit ts = .ok b) :
    b.conditions = Token.operands ts := by
  simpa using (turns_of_run h).conditions_eq

/-- No connective is lost: each that was read joins two formulas or has been discarded. -/
theorem run_connectives {ts : List Token} {b : Built} (h : assemble limit ts = .ok b)
    (op : Connective) : b.count op = ts.count (.connective op) := by
  have hkeep := run_keeps (P := fun x => total op x = ts.count (.connective op))
    (fun x y hxy hx => (hxy.total_eq op).trans hx) h (by simp [total, start, Built.count])
  simpa [total] using hkeep

theorem run_sized (hlimit : 1 ≤ limit) {ts : List Token} {b : Built}
    (h : assemble limit ts = .ok b) : WellSized limit b :=
  (turns_of_run h).wellSized hlimit

theorem run_split {ts : List Token} {b : Built} (h : assemble limit ts = .ok b) :
    ∀ text ∈ b.conditions, ∃ parts, Condition.split text = .ok parts :=
  run_keeps (P := fun x => ∀ text ∈ x.1.built.conditions, ∃ parts, Condition.split text = .ok parts)
    (fun _ _ hxy hx => hxy.split hx) h (by simp [start, Built.conditions])

end Verdict.Rule.Assembly
