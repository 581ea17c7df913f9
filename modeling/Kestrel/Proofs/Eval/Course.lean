import Kestrel.Proofs.Eval.Composed

/-!
# The course of an evaluation

The evaluator of so many steps carries a task out with the help of the evaluator of one step less.
A visit leads to the visits that its task asks for there, and through them it reaches all visits
that its evaluation consists of. The visits between the two make a chain: each construct in it is
still being carried out when the next one begins.
-/

namespace Kestrel

/-- How a task is carried out. -/
def Task.construct (host : Host) : (task : Task) → Construct task.Outcome
  | .expression scope part => fun evaluator => evaluateExpression host evaluator scope part
  | .statement scope part => fun evaluator => executeStatement host evaluator scope part
  | .block scope parts => fun evaluator => executeBlock evaluator scope parts

namespace Evaluator

/-- Carrying a task out takes one step. -/
theorem perform_ofSteps_succ (host : Host) (steps : Nat) (task : Task) :
    (ofSteps host (steps + 1)).perform task = task.construct host (ofSteps host steps) := by
  cases task <;> rfl

/-- A visit with one step more is its task, carried out in its state. -/
theorem outcome_ofSteps_succ (host : Host) (steps : Nat) (visit : Visit) :
    (ofSteps host (steps + 1)).outcome visit =
      visit.task.construct host (ofSteps host steps) visit.state := by
  unfold outcome
  rw [perform_ofSteps_succ]

/-- Without steps every visit is halted. -/
theorem outcome_ofSteps_zero (host : Host) (visit : Visit) :
    (ofSteps host 0).outcome visit = .halted .outOfSteps := by
  obtain ⟨task, state⟩ := visit
  cases task <;> rfl

end Evaluator

/-- The end of a statement, by the end of its form. -/
def Result.settled (scope : Scope) (line : Nat) : Result Signal → Result Signal
  | .interrupted (.error error) after =>
    .interrupted (.error (error.locate ⟨scope.module, line⟩ after.calls.frames)) after
  | .interrupted (.loopExit exit) after => .value (.exit exit) after
  | other => other

/-- A statement ends as its form does, but for what reaches its end as an interrupt. -/
theorem executeStatement_apply (host : Host) (evaluator : Evaluator) (scope : Scope)
    (statement : Statement) (state : State) :
    executeStatement host evaluator scope statement state =
      (executeForm host evaluator scope statement.form state).settled scope statement.line := by
  unfold executeStatement settle
  cases executeForm host evaluator scope statement.form state with
  | value signal after => rfl
  | interrupted interrupt after => cases interrupt <;> rfl
  | halted reason => rfl

/-- A statement is halted exactly if its form is. -/
theorem Result.settled_eq_halted_iff {scope : Scope} {line : Nat} {result : Result Signal}
    {reason : Halt} : result.settled scope line = .halted reason ↔ result = .halted reason := by
  cases result with
  | value signal after => rfl
  | interrupted interrupt after => cases interrupt <;> simp [settled]
  | halted other => rfl

/-- A statement ends in the state in which its form ends. -/
theorem Result.after?_settled (scope : Scope) (line : Nat) (result : Result Signal) :
    (result.settled scope line).after? = result.after? := by
  cases result with
  | value signal after => rfl
  | interrupted interrupt after => cases interrupt <;> rfl
  | halted other => rfl

namespace Task

/-- What a task belongs to. -/
def layer : Task → Layer
  | .expression _ _ => .expression
  | .statement _ _ => .form
  | .block _ _ => .block

/-- How a task is carried out, apart from what a statement does about an interrupt at its end. -/
def unsettled (host : Host) : (task : Task) → Construct task.Outcome
  | .expression scope part => fun evaluator => evaluateExpression host evaluator scope part
  | .statement scope part => fun evaluator => executeForm host evaluator scope part.form
  | .block scope parts => fun evaluator => executeBlock evaluator scope parts

/-- Every task is put together from the parts of its layer. -/
theorem composed_unsettled (host : Host) (task : Task) :
    Composed task.layer (task.unsettled host) := by
  cases task with
  | expression scope part => exact Composed.evaluateExpression host scope part
  | statement scope part => exact Composed.executeForm host scope part.form
  | block scope parts => exact Composed.executeRow scope .nothing parts

/-- Settling its end does not change what a task asks for. -/
theorem asks_construct_iff {host : Host} {task : Task} {evaluator : Evaluator} {state : State}
    {visit : Visit} : Asks (task.construct host) evaluator state visit ↔
      Asks (task.unsettled host) evaluator state visit := by
  cases task with
  | expression scope part => rfl
  | statement scope part =>
    simp only [Asks, construct, unsettled, executeStatement_apply, Result.settled_eq_halted_iff]
  | block scope parts => rfl

/-- Settling its end does not change the state that a task leaves. -/
theorem after?_construct (host : Host) (task : Task) (evaluator : Evaluator) (state : State) :
    (task.construct host evaluator state).after? =
      (task.unsettled host evaluator state).after? := by
  cases task with
  | expression scope part => rfl
  | statement scope part =>
    simp only [construct, unsettled, executeStatement_apply, Result.after?_settled]
  | block scope parts => rfl

end Task

/-- With so many steps left for it, a visit asks for another one. -/
def Leads (host : Host) (steps : Nat) (outer inner : Visit) : Prop :=
  Asks (outer.task.construct host) (.ofSteps host steps) outer.state inner

/-- A `try` statement leads to its body, to its catch block where the body was interrupted, and to
its finally block where the pending end was reached; and to nothing else. -/
theorem leads_attempt_iff {host : Host} {steps : Nat} {scope : Scope} {body : Block}
    {catchBlock finallyBlock : Option Block} {inner span : Span} {state : State} {visit : Visit} :
    Leads host steps ⟨.statement scope ⟨.attempt body catchBlock finallyBlock inner, span⟩, state⟩
        visit ↔
      (visit = .scoped scope body state ∨ ∃ interrupt middle block,
        (Evaluator.ofSteps host steps).outcome (.scoped scope body state) =
            .interrupted interrupt middle ∧
          catchBlock = some block ∧ visit = .handling scope block interrupt middle) ∨
      ∃ middle block,
        ((Evaluator.ofSteps host steps).pendingEnd scope body catchBlock state).after? =
            some middle ∧
          finallyBlock = some block ∧ visit = .scoped scope block middle :=
  Task.asks_construct_iff.trans asks_executeAttempt_iff

/-- With so many steps, the evaluation of a visit comes to another one, for which the second number
of steps is left. -/
inductive Reaches (host : Host) : Nat → Visit → Nat → Visit → Prop
  | refl (steps : Nat) (visit : Visit) : Reaches host steps visit steps visit
  | step {steps left : Nat} {outer middle inner : Visit} (hleads : Leads host steps outer middle)
    (hreaches : Reaches host steps middle left inner) :
    Reaches host (steps + 1) outer left inner

/-- What is reached from a visit that was reached is reached. -/
theorem Reaches.trans {host : Host} {steps middleSteps left : Nat} {outer middle inner : Visit}
    (hmiddle : Reaches host steps outer middleSteps middle)
    (hinner : Reaches host middleSteps middle left inner) :
    Reaches host steps outer left inner := by
  induction hmiddle with
  | refl steps visit => exact hinner
  | step hleads _ ih => exact .step hleads (ih hinner)

end Kestrel
