import Kestrel.Proofs.Discipline.Native
import Kestrel.Proofs.Eval.Course

/-!
# Visits under a discipline

A task can be left to an evaluator if the program may know its scope, may declare there what a
statement declares, and may declare anything in the scope of a block. An evaluator that obeys the
discipline in all such tasks is trusted. A construct respects the discipline if it obeys it with the
help of a trusted evaluator and asks only for such tasks. This file gives the rules for the parts
that constructs are put together from.
-/

namespace Kestrel

/-- The name that a statement itself declares in its scope. -/
def StatementForm.declaredName? : StatementForm → Option String
  | var name _ _ => some name.name
  | function declaration => some declaration.name.name
  | struct declaration => some declaration.name.name
  | importing declaration => some declaration.bindingName
  | _ => none

/-- Computations in a row that ignore a visit ignore it. -/
theorem Ignores.bind {α β : Type} {first : Construct α} {next : α → Construct β}
    {evaluator : Evaluator} {state : State} {visit : Visit}
    (hfirst : Ignores first evaluator state visit)
    (hnext : ∀ value after, first evaluator state = .value value after →
      Ignores (next value) evaluator after visit) :
    Ignores (fun e => first e >>= fun value => next value e) evaluator state visit := by
  intro reason
  simp only [Eval.bind_apply, hfirst reason]
  cases hend : first evaluator state with
  | value value after => exact hnext value after hend reason
  | interrupted interrupt after => rfl
  | halted reason => rfl

namespace Result.Obeys

variable {D : Discipline} {before : Store}

/-- A call gives what the body of the function returns. -/
theorem leaveCall {result : Result Signal} (hresult : result.Obeys D before D.Knows) :
    result.leaveCall.Obeys D before D.Knows := by
  cases result with
  | value signal after =>
    cases signal with
    | value given => exact ⟨hresult.1, Discipline.knows_value_nothing⟩
    | returned given => exact hresult
    | exit exit => exact hresult.1
  | interrupted interrupt after => exact hresult
  | halted reason => trivial

/-- A pending end is still good after a finally block, and so is the end of the block. -/
theorem afterFinally {pending finished : Result Signal} {middle : State}
    (hpending : pending.Obeys D before D.Knows) (hmiddle : pending.after? = some middle)
    (hfinished : finished.Obeys D middle.store D.Knows) :
    (pending.afterFinally finished).Obeys D before D.Knows := by
  have hpasses := hpending.passes hmiddle
  by_cases hnormal : ∃ given after, finished = .value (.value given) after
  · obtain ⟨given, after, rfl⟩ := hnormal
    cases pending with
    | value signal final =>
      cases hmiddle
      exact ⟨hpasses.trans hfinished.1, hpending.2.later hfinished.1⟩
    | interrupted interrupt final =>
      cases hmiddle
      exact hpasses.trans hfinished.1
    | halted reason => cases hmiddle
  · rw [Result.afterFinally_of_abrupt fun given after hend => hnormal ⟨given, after, hend⟩]
    exact hfinished.of_passes hpasses

end Result.Obeys

namespace Discipline

variable (D : Discipline)

/-- What has to be so for a task to be begun. -/
def Ready (store : Store) : Task → Prop
  | .expression scope _ => D.Knows store scope
  | .statement scope statement =>
    D.Knows store scope ∧
      ∀ name, statement.form.declaredName? = some name → D.binds scope.here name
  | .block scope _ => D.Opens store scope

/-- A visit that may begin after a store. -/
def Begins (before : Store) (visit : Visit) : Prop :=
  D.Passes before visit.state.store ∧ D.Ready visit.state.store visit.task

/-- The program may know what a task gives. -/
def KnowsOutcome : (task : Task) → Store → task.Outcome → Prop
  | .expression _ _ => D.Knows
  | .statement _ _ => D.Knows
  | .block _ _ => D.Knows

/-- The evaluator obeys the discipline in every task that is ready. -/
def Trusts (evaluator : Evaluator) : Prop :=
  ∀ task state, D.Ready state.store task →
    D.Obeys state (evaluator.perform task) (D.KnowsOutcome task)

/-- From a state, a construct obeys the discipline and asks only for visits that may begin. -/
structure Respects {α : Type} (evaluator : Evaluator) (state : State) (construct : Construct α)
    (given : Store → α → Prop) : Prop where
  obeys : D.Obeys state (construct evaluator) given
  visits : D.holds state.store → ∀ visit,
    Ignores construct evaluator state visit ∨ D.Begins state.store visit

variable {D} {evaluator : Evaluator} {state : State} {store before after : Store}

/-- A visit that may begin after a later store may begin. -/
theorem Begins.of_passes {visit : Visit} (hbegins : D.Begins after visit)
    (hpasses : D.Passes before after) : D.Begins before visit :=
  ⟨hpasses.trans hbegins.1, hbegins.2⟩

/-- How a visit ends that may begin. -/
theorem Trusts.outcome {visit : Visit} (htrusts : D.Trusts evaluator)
    (hbegins : D.Begins before visit) :
    (evaluator.outcome visit).Obeys D before (D.KnowsOutcome visit.task) :=
  (htrusts visit.task visit.state hbegins.2 hbegins.1.1).of_passes hbegins.1

namespace Respects

variable {α β : Type} {given : Store → α → Prop}

/-- A computation that uses no evaluator. -/
theorem plain {computation : Eval α} (hobeys : D.Obeys state computation given) :
    D.Respects evaluator state (fun _ => computation) given :=
  ⟨hobeys, fun _ _ => .inl (ignores_const _ _ _ _)⟩

/-- What the program may know depends on the stores that it may meet. -/
theorem of_holds {construct : Construct α}
    (hrespects : D.holds state.store → D.Respects evaluator state construct given) :
    D.Respects evaluator state construct given :=
  ⟨fun hholds => (hrespects hholds).obeys hholds, fun hholds => (hrespects hholds).visits hholds⟩

/-- One construct after another one. -/
theorem bind {first : Construct α} {next : α → Construct β} {done : Store → β → Prop}
    (hfirst : D.Respects evaluator state first given)
    (hnext : ∀ made after, D.Passes state.store after.store → given after.store made →
      D.Respects evaluator after (next made) done) :
    D.Respects evaluator state (fun e => first e >>= fun made => next made e) done := by
  refine ⟨hfirst.obeys.bind fun made after hpasses hmade => (hnext made after hpasses hmade).obeys,
    fun hholds visit => ?_⟩
  rcases hfirst.visits hholds visit with hignores | hbegins
  · by_cases hmade : ∃ made after, first evaluator state = .value made after ∧
        D.Begins after.store visit
    · obtain ⟨made, after, hend, hbegins⟩ := hmade
      have hresult := hfirst.obeys hholds
      rw [hend] at hresult
      exact .inr (hbegins.of_passes hresult.1)
    · refine .inl (hignores.bind fun made after hend => ?_)
      have hresult := hfirst.obeys hholds
      rw [hend] at hresult
      have hvisits := (hnext made after hresult.1 hresult.2).visits hresult.1.1 visit
      exact hvisits.resolve_right fun hbegins => hmade ⟨made, after, hend, hbegins⟩
  · exact .inr hbegins

/-- What follows a look at the store. -/
theorem afterView {f : Store → α} {next : α → Construct β} {done : Store → β → Prop}
    (hnext : D.Respects evaluator state (next (f state.store)) done) :
    D.Respects evaluator state (fun e => Eval.view f >>= fun made => next made e) done :=
  ⟨hnext.obeys, hnext.visits⟩

/-- A choice between two constructs. -/
theorem ite {condition : Prop} [Decidable condition] {first second : Construct α}
    (hfirst : D.Respects evaluator state first given)
    (hsecond : D.Respects evaluator state second given) :
    D.Respects evaluator state (fun e => if condition then first e else second e) given := by
  by_cases h : condition
  · simpa only [if_pos h] using hfirst
  · simpa only [if_neg h] using hsecond

/-- A construct that depends on how often a loop may repeat its body. -/
theorem rounds {construct : Nat → Construct α}
    (hrounds : D.Respects evaluator state (construct evaluator.rounds) given) :
    D.Respects evaluator state (fun e => construct e.rounds e) given :=
  ⟨hrounds.obeys, hrounds.visits⟩

/-- A task that is ready. -/
theorem perform {task : Task} (htrusts : D.Trusts evaluator) (hready : D.Ready state.store task) :
    D.Respects evaluator state (fun e => e.perform task) (D.KnowsOutcome task) := by
  refine ⟨htrusts task state hready, fun hholds visit => ?_⟩
  rcases asks_or_ignores_perform task evaluator state visit with hasks | hignores
  · rw [asks_perform_iff.mp hasks]
    exact .inr ⟨.refl hholds, hready⟩
  · exact .inl hignores

/-- An expression in a scope that the program may know. -/
theorem expression (htrusts : D.Trusts evaluator) {scope : Scope}
    (hscope : D.Knows state.store scope) (part : Expression) :
    D.Respects evaluator state (fun e => e.expression scope part) D.Knows :=
  @perform D evaluator state (.expression scope part) htrusts hscope

/-- A block in a scope that is there for it. -/
theorem block (htrusts : D.Trusts evaluator) {scope : Scope} (hscope : D.Opens state.store scope)
    (parts : List Statement) :
    D.Respects evaluator state (fun e => e.block scope parts) D.Knows :=
  @perform D evaluator state (.block scope parts) htrusts hscope

end Respects

section Calls

/-- Arguments for parameters are bound in the scope of a call. -/
theorem Obeys.bindParameters {scope : Scope} (hscope : D.Opens state.store scope)
    (parameters : List String) {arguments : List Value}
    (harguments : D.Knows state.store arguments) :
    D.Obeys state (Kestrel.bindParameters scope parameters arguments) D.Knows := by
  induction parameters generalizing arguments state with
  | nil => exact pure (knows_unit ())
  | cons parameter parameters ih =>
    have hhere := (knows_scope.mp hscope.1).2.1
    cases arguments with
    | nil =>
      exact bind (bindName hhere (hscope.2 parameter) knows_value_nothing)
        fun _ _ hpasses _ => ih (hscope.later hpasses) knows_nil
    | cons argument arguments =>
      obtain ⟨hfirst, hothers⟩ := knows_cons.mp harguments
      exact bind (bindName hhere (hscope.2 parameter) hfirst)
        fun _ _ hpasses _ => ih (hscope.later hpasses) (hothers.later hpasses)

/-- The scope of a call is new. -/
theorem Obeys.callScope {closure : Closure} {arguments : List Value}
    (hclosure : D.Knows state.store closure) (harguments : D.Knows state.store arguments) :
    D.Obeys state (Kestrel.callScope closure arguments) D.Opens := by
  obtain ⟨hscope, hreceiver⟩ := knows_closure.mp hclosure
  refine bind (newScope hscope) fun inner middle hmiddle hinner => ?_
  refine bind (bindParameters hinner _ (harguments.later hmiddle)) fun _ after hafter _ => ?_
  cases hobject : closure.receiver? with
  | none => exact pure (hinner.later hafter)
  | some object =>
    rw [hobject, knows_some, knows_ref] at hreceiver
    have hthis : D.Knows after.store (Value.object object) :=
      knows_value_object.mpr (D.admits_later (hmiddle.trans hafter).2 hreceiver)
    have hhere := (knows_scope.mp (hinner.later hafter).1).2.1
    exact bind (bindName hhere (hinner.2 "this") hthis) fun _ _ hpasses _ =>
      pure ((hinner.later hafter).later hpasses)

/-- A call of a function of the program. -/
theorem Respects.callFunction (htrusts : D.Trusts evaluator) {ref : Ref .function}
    {arguments : List Value} (href : D.admits state.store (.cell ref))
    (harguments : D.Knows state.store arguments) (module : String) (line : Nat) :
    D.Respects evaluator state
      (fun e => Kestrel.callFunction e ref arguments module line) D.Knows := by
  refine of_holds fun hholds => ?_
  obtain ⟨scope, start, hscope, _⟩ := callScope_eq_value (state.store.get ref) arguments state
  have hresult := Obeys.callScope (knows_function hholds href) harguments hholds
  rw [hscope] at hresult
  have hbody (calls : CallStack) :
      D.Begins state.store (.body (state.store.get ref) scope start calls) :=
    hresult
  refine ⟨fun _ => ?_, fun _ visit => ?_⟩
  · rw [callFunction_apply evaluator module line hscope]
    cases start.calls.push ⟨(state.store.get ref).displayName, module, line⟩ with
    | error cause => exact hresult.1
    | ok calls => exact (htrusts.outcome (hbody calls)).leaveCall
  · rcases asks_or_ignores_callFunction ref arguments module line evaluator state visit with
      hasks | hignores
    · obtain ⟨calls, _, rfl⟩ := (asks_callFunction_iff hscope).mp hasks
      exact .inr (hbody calls)
    · exact .inl hignores

end Calls

section Attempts

variable {scope : Scope}

/-- A block in a new scope may begin. -/
theorem begins_scoped (hholds : D.holds state.store) (hscope : D.Knows state.store scope)
    (block : Block) : D.Begins state.store (.scoped scope block state) :=
  Obeys.newScope hscope hholds

/-- A catch block may begin. -/
theorem begins_handling (hholds : D.holds state.store) (hscope : D.Knows state.store scope)
    (block : Block) (interrupt : Interrupt) :
    D.Begins state.store (.handling scope block interrupt state) := by
  have hhandling : D.Obeys state (do
      let inner ← Eval.newScope scope
      Eval.bindName inner "error" (.error interrupt.asError.kind interrupt.asError.message)
      return inner) D.Opens := by
    refine Obeys.bind (.newScope hscope) fun inner middle _ hinner => ?_
    have hhere := (knows_scope.mp hinner.1).2.1
    exact Obeys.bind (.bindName hhere (hinner.2 "error") (knows_value_error _ _))
      fun _ _ hpasses _ => .pure (hinner.later hpasses)
  exact hhandling hholds

/-- What follows the body of a `try` statement: the catch block, if it is begun. -/
theorem Trusts.afterBody (htrusts : D.Trusts evaluator) (hscope : D.Knows before scope)
    (catchBlock : Option Block) {bodyEnd : Result Signal} (hbody : bodyEnd.Obeys D before D.Knows) :
    (evaluator.afterBody scope catchBlock bodyEnd).Obeys D before D.Knows := by
  by_cases hcaught : ∃ interrupt middle block, bodyEnd = .interrupted interrupt middle ∧
      catchBlock = some block
  · obtain ⟨interrupt, middle, block, rfl, rfl⟩ := hcaught
    have hpasses : D.Passes before middle.store := hbody
    have hhandling := begins_handling hpasses.1 (hscope.later hpasses) block interrupt
    exact htrusts.outcome (hhandling.of_passes hpasses)
  · rwa [Evaluator.afterBody_of_not_caught _ _ hcaught]

/-- A `try` statement. -/
theorem Respects.executeAttempt (htrusts : D.Trusts evaluator) (hscope : D.Knows state.store scope)
    (body : Block) (catchBlock finallyBlock : Option Block) :
    D.Respects evaluator state
      (fun e => Kestrel.executeAttempt e scope body catchBlock finallyBlock) D.Knows := by
  refine of_holds fun hholds => ?_
  have hbody := htrusts.outcome (begins_scoped hholds hscope body)
  have hpending := htrusts.afterBody hscope catchBlock hbody
  have hfinally {middle : State} (block : Block)
      (hmiddle : (evaluator.pendingEnd scope body catchBlock state).after? = some middle) :
      D.Begins middle.store (.scoped scope block middle) := by
    have hpasses := hpending.passes hmiddle
    exact begins_scoped hpasses.1 (hscope.later hpasses) block
  refine ⟨fun _ => ?_, fun _ visit => ?_⟩
  · rw [executeAttempt_apply]
    unfold Evaluator.afterPending
    split
    · next block middle hmiddle =>
      exact hpending.afterFinally hmiddle (htrusts.outcome (hfinally block hmiddle))
    · exact hpending
  · rcases @asks_or_ignores_executeAttempt evaluator state visit scope body catchBlock
      finallyBlock with hasks | hignores
    · right
      rcases asks_executeAttempt_iff.mp hasks with
        (rfl | ⟨interrupt, middle, block, hend, _, rfl⟩) | ⟨middle, block, hmiddle, _, rfl⟩
      · exact begins_scoped hholds hscope body
      · rw [hend] at hbody
        have hpasses : D.Passes state.store middle.store := hbody
        exact (begins_handling hpasses.1 (hscope.later hpasses) block interrupt).of_passes hpasses
      · exact (hfinally block hmiddle).of_passes (hpending.passes hmiddle)
    · exact .inl hignores

end Attempts

end Discipline

end Kestrel
