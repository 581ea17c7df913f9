import Kestrel.Proofs.Eval.Plain

/-!
# What a computation asks of an evaluator

A construct leaves what it contains to an evaluator. It asks for a task in some state, and this
file says what that means without looking into the construct: a construct asks for a visit if it
halts whenever that visit is halted, whatever the reason. A visit that a construct does not ask
for can be halted unnoticed.
-/

namespace Kestrel

/-- Something that an evaluator can be asked for. -/
inductive Task where
  | expression (scope : Scope) (expression : Expression)
  | statement (scope : Scope) (statement : Statement)
  | block (scope : Scope) (statements : List Statement)

/-- What a task gives when it is not interrupted. -/
abbrev Task.Outcome : Task → Type
  | expression _ _ => Value
  | statement _ _ => Signal
  | block _ _ => Signal

/-- A task in the state in which it is begun. -/
structure Visit where
  task : Task
  state : State

/-- A computation made with the help of an evaluator. -/
abbrev Construct (α : Type) := Evaluator → Eval α

namespace Evaluator

/-- What an evaluator does when asked for a task. -/
def perform (evaluator : Evaluator) : (task : Task) → Eval task.Outcome
  | .expression scope expression => evaluator.expression scope expression
  | .statement scope statement => evaluator.statement scope statement
  | .block scope statements => evaluator.block scope statements

/-- How an evaluator's visit ends. -/
def outcome (evaluator : Evaluator) (visit : Visit) : Result visit.task.Outcome :=
  evaluator.perform visit.task visit.state

/-- An interrupt leaves a visit. -/
def Interrupted (evaluator : Evaluator) (visit : Visit) (interrupt : Interrupt) : Prop :=
  ∃ after, evaluator.outcome visit = .interrupted interrupt after

open Classical in
/-- An evaluator that is halted when it is asked for one visit, and is unchanged otherwise. -/
noncomputable def haltedAt (evaluator : Evaluator) (visit : Visit) (reason : Halt) :
    Evaluator where
  expression scope expression state :=
    if visit = ⟨.expression scope expression, state⟩ then .halted reason
    else evaluator.expression scope expression state
  statement scope statement state :=
    if visit = ⟨.statement scope statement, state⟩ then .halted reason
    else evaluator.statement scope statement state
  block scope statements state :=
    if visit = ⟨.block scope statements, state⟩ then .halted reason
    else evaluator.block scope statements state
  rounds := evaluator.rounds

open Classical in
/-- A halted visit has no outcome, and all others are as they were. -/
theorem perform_haltedAt (evaluator : Evaluator) (visit : Visit) (reason : Halt) (task : Task)
    (state : State) : (evaluator.haltedAt visit reason).perform task state =
      if visit = ⟨task, state⟩ then .halted reason else evaluator.perform task state := by
  cases task <;> rfl

end Evaluator

section Asks

variable {α β : Type}

/-- A construct asks for a visit if halting the visit halts the construct, for every reason. -/
def Asks (construct : Construct α) (evaluator : Evaluator) (state : State) (visit : Visit) :
    Prop :=
  ∀ reason, construct (evaluator.haltedAt visit reason) state = .halted reason

/-- A construct ignores a visit if halting the visit makes no difference to the construct. -/
def Ignores (construct : Construct α) (evaluator : Evaluator) (state : State) (visit : Visit) :
    Prop :=
  ∀ reason, construct (evaluator.haltedAt visit reason) state = construct evaluator state

/-- No result is halted for every reason at once. -/
theorem Result.not_halted_always (result : Result α) : ¬ ∀ reason, result = .halted reason := by
  intro h
  have hreasons := (h .outOfSteps).symm.trans (h (.awaitingFile ""))
  cases hreasons

/-- A construct does not both ask for a visit and ignore it. -/
theorem Ignores.not_asks {construct : Construct α} {evaluator : Evaluator} {state : State}
    {visit : Visit} (hignores : Ignores construct evaluator state visit) :
    ¬ Asks construct evaluator state visit := by
  intro hasks
  apply Result.not_halted_always (construct evaluator state)
  intro reason
  rw [← hignores reason]
  exact hasks reason

/-- A computation that uses no evaluator ignores every visit. -/
theorem ignores_const (computation : Eval α) (evaluator : Evaluator) (state : State)
    (visit : Visit) : Ignores (fun _ => computation) evaluator state visit := fun _ => rfl

/-- Halting a visit halts exactly that visit, for every reason. -/
theorem halted_outcome_iff {evaluator : Evaluator} {visit other : Visit} :
    (∀ reason, (evaluator.haltedAt visit reason).outcome other = .halted reason) ↔
      visit = other := by
  classical
  unfold Evaluator.outcome
  constructor
  · intro hhalted
    by_cases h : visit = other
    · exact h
    · simp only [Evaluator.perform_haltedAt, if_neg h] at hhalted
      exact absurd hhalted (Result.not_halted_always _)
  · intro heq reason
    rw [Evaluator.perform_haltedAt, if_pos heq]

/-- Halting a visit either halts another one, which is then the same, or leaves it alone. -/
theorem halted_or_unchanged_outcome (evaluator : Evaluator) (visit other : Visit) :
    (∀ reason, (evaluator.haltedAt visit reason).outcome other = .halted reason) ∨
      ∀ reason, (evaluator.haltedAt visit reason).outcome other = evaluator.outcome other := by
  classical
  by_cases h : visit = other
  · exact .inl (halted_outcome_iff.mpr h)
  · right
    intro reason
    unfold Evaluator.outcome
    rw [Evaluator.perform_haltedAt, if_neg h]

/-- A construct that only passes a task on asks for exactly that task, in its own state. -/
theorem asks_perform_iff {task : Task} {evaluator : Evaluator} {state : State} {visit : Visit} :
    Asks (fun e => e.perform task) evaluator state visit ↔ visit = ⟨task, state⟩ :=
  @halted_outcome_iff evaluator visit ⟨task, state⟩

/-- A construct that only passes a task on asks for a visit or ignores it. -/
theorem asks_or_ignores_perform (task : Task) (evaluator : Evaluator) (state : State)
    (visit : Visit) : Asks (fun e => e.perform task) evaluator state visit ∨
      Ignores (fun e => e.perform task) evaluator state visit :=
  halted_or_unchanged_outcome evaluator visit ⟨task, state⟩

/-- Going on from the end of a construct asks for what the construct asks for, and for what is asked
for from there on. -/
theorem asks_continuation_iff {first : Construct α} {next : Evaluator → Result α → Result β}
    {evaluator : Evaluator} {state : State} {visit : Visit}
    (hfirst : Asks first evaluator state visit ∨ Ignores first evaluator state visit)
    (hhalted : ∀ e reason, next e (.halted reason) = .halted reason) :
    Asks (fun e start => next e (first e start)) evaluator state visit ↔
      Asks first evaluator state visit ∨
        ∀ reason, next (evaluator.haltedAt visit reason) (first evaluator state) =
          .halted reason := by
  have hleft (hasks : Asks first evaluator state visit) :
      Asks (fun e start => next e (first e start)) evaluator state visit := by
    intro reason
    simp only [hasks reason, hhalted]
  constructor
  · intro hasks
    rcases hfirst with hfirst | hfirst
    · exact .inl hfirst
    · right
      intro reason
      rw [← hfirst reason]
      exact hasks reason
  · rintro (hasks | hnext)
    · exact hleft hasks
    · rcases hfirst with hfirst | hfirst
      · exact hleft hfirst
      · intro reason
        simp only [hfirst reason]
        exact hnext reason

/-- Going on from the end of a construct asks for a visit or ignores it if the construct does and
what follows does. -/
theorem asks_or_ignores_continuation {first : Construct α}
    {next : Evaluator → Result α → Result β} {evaluator : Evaluator} {state : State}
    {visit : Visit}
    (hfirst : Asks first evaluator state visit ∨ Ignores first evaluator state visit)
    (hhalted : ∀ e reason, next e (.halted reason) = .halted reason)
    (hnext : (∀ reason, next (evaluator.haltedAt visit reason) (first evaluator state) =
        .halted reason) ∨
      ∀ reason, next (evaluator.haltedAt visit reason) (first evaluator state) =
        next evaluator (first evaluator state)) :
    Asks (fun e start => next e (first e start)) evaluator state visit ∨
      Ignores (fun e start => next e (first e start)) evaluator state visit := by
  rcases hfirst with hasks | hignores
  · exact .inl ((asks_continuation_iff (.inl hasks) hhalted).mpr (.inl hasks))
  · rcases hnext with hnext | hnext
    · exact .inl ((asks_continuation_iff (.inr hignores) hhalted).mpr (.inr hnext))
    · right
      intro reason
      simp only [hignores reason]
      exact hnext reason

/-- Two computations in a row ask for what the first one asks for, and for what the second one asks
for after the first one gave its value. -/
theorem asks_bind_iff {first : Construct α} {next : α → Construct β} {evaluator : Evaluator}
    {state : State} {visit : Visit}
    (hfirst : Asks first evaluator state visit ∨ Ignores first evaluator state visit) :
    Asks (fun e => first e >>= fun value => next value e) evaluator state visit ↔
      Asks first evaluator state visit ∨ ∃ value after,
        first evaluator state = .value value after ∧ Asks (next value) evaluator after visit := by
  refine (@asks_continuation_iff _ _ first
    (fun e result => result.andThen fun value => next value e) evaluator state visit hfirst
    fun _ _ => rfl).trans (or_congr_right ?_)
  cases first evaluator state with
  | value value after =>
    constructor
    · exact fun hasks => ⟨value, after, rfl, hasks⟩
    · rintro ⟨_, _, ⟨⟩, hasks⟩
      exact hasks
  | interrupted interrupt after =>
    simp only [reduceCtorEq, false_and, exists_false, iff_false]
    exact Result.not_halted_always (.interrupted interrupt after)
  | halted reason =>
    simp only [reduceCtorEq, false_and, exists_false, iff_false]
    exact Result.not_halted_always (.halted reason)

/-- What is asked for after a computation that uses no evaluator is asked for by the next one. -/
theorem asks_after_const {computation : Eval α} {next : α → Construct β} {evaluator : Evaluator}
    {state : State} {visit : Visit}
    (hasks : Asks (fun e => computation >>= fun value => next value e) evaluator state visit) :
    ∃ value after, computation state = .value value after ∧
      Asks (next value) evaluator after visit := by
  have hignores := ignores_const computation evaluator state visit
  rcases (asks_bind_iff (.inr hignores)).mp hasks with hasks | hnext
  · exact absurd hasks hignores.not_asks
  · exact hnext

/-- A block that is asked for after an expression is asked for by the next computation. -/
theorem asks_block_after_expression {scope inner : Scope} {part : Expression}
    {parts : List Statement} {next : Value → Construct β} {evaluator : Evaluator}
    {state start : State}
    (hasks : Asks (fun e => e.expression scope part >>= fun value => next value e) evaluator state
      ⟨.block inner parts, start⟩) :
    ∃ value after, evaluator.expression scope part state = .value value after ∧
      Asks (next value) evaluator after ⟨.block inner parts, start⟩ := by
  have hfirst := asks_or_ignores_perform (.expression scope part) evaluator state
    ⟨.block inner parts, start⟩
  rcases (asks_bind_iff hfirst).mp hasks with hasks | hnext
  · cases asks_perform_iff.mp hasks
  · exact hnext

/-- Two computations in a row ask for a visit or ignore it if each of them does. -/
theorem asks_or_ignores_bind {first : Construct α} {next : α → Construct β}
    {evaluator : Evaluator} {state : State} {visit : Visit}
    (hfirst : Asks first evaluator state visit ∨ Ignores first evaluator state visit)
    (hnext : ∀ value after, Asks (next value) evaluator after visit ∨
      Ignores (next value) evaluator after visit) :
    Asks (fun e => first e >>= fun value => next value e) evaluator state visit ∨
      Ignores (fun e => first e >>= fun value => next value e) evaluator state visit := by
  refine @asks_or_ignores_continuation _ _ first
    (fun e result => result.andThen fun value => next value e) evaluator state visit hfirst
    (fun _ _ => rfl) ?_
  cases first evaluator state with
  | value value after => exact hnext value after
  | interrupted interrupt after => exact .inr fun _ => rfl
  | halted reason => exact .inr fun _ => rfl

end Asks

end Kestrel
