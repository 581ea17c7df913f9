import Kestrel.Proofs.Eval.CallBalance
import Kestrel.Proofs.Eval.LoopExit

/-!
# Where errors come from

An error arises in a statement when it reaches the statement's end and no statement inside has let
it out. There it gets its location and its trace, and it keeps them while it escapes from the
blocks, calls and statements around. Since the call stack is in balance, the trace is the list of
calls that were active when that innermost statement began.
-/

namespace Kestrel

/-- An error escapes from a visit: either it arose there, in a statement, as a new error that no
statement inside let out, or the visit led to another one that it had escaped from before. The last
visit is the statement in which it arose. -/
inductive Escapes (host : Host) (error : RuntimeError) : Nat → Visit → Nat → Visit → Prop
  | arises {steps : Nat} {scope : Scope} {statement : Statement} {state after : State}
    {cause : Cause} (hfresh : executeForm host (.ofSteps host steps) scope statement.form state =
      .interrupted (.error (.ofCause cause)) after)
    (hfails : (Evaluator.ofSteps host (steps + 1)).Interrupted
      ⟨.statement scope statement, state⟩ (.error error)) :
    Escapes host error (steps + 1) ⟨.statement scope statement, state⟩
      (steps + 1) ⟨.statement scope statement, state⟩
  | passes {steps left : Nat} {outer middle origin : Visit}
    (hleads : Leads host steps outer middle)
    (hfails : (Evaluator.ofSteps host (steps + 1)).Interrupted outer (.error error))
    (hescapes : Escapes host error steps middle left origin) :
    Escapes host error (steps + 1) outer left origin

/-- What a call fails with is what its body failed with, or the limit was reached. -/
theorem Result.leaveCall_eq_error {result : Result Signal} {error : RuntimeError} {after : State}
    (herror : result.leaveCall = .interrupted (.error error) after) :
    ∃ middle, result = .interrupted (.error error) middle := by
  cases result with
  | value signal middle => cases signal <;> cases herror
  | interrupted interrupt middle =>
    cases herror
    exact ⟨middle, rfl⟩
  | halted reason => cases herror

/-- A call fails with a new error or with an error of the function's body. -/
theorem callFunction_error {ref : Ref .function} {arguments : List Value} {module : String}
    {line : Nat} {evaluator : Evaluator} {state after : State} {error : RuntimeError}
    (herror : callFunction evaluator ref arguments module line state =
      .interrupted (.error error) after) :
    (∃ cause, error = .ofCause cause) ∨ ∃ visit,
      Asks (fun e => callFunction e ref arguments module line) evaluator state visit ∧
        evaluator.Interrupted visit (.error error) := by
  obtain ⟨scope, start, hscope, _⟩ := callScope_eq_value (state.store.get ref) arguments state
  rw [callFunction_apply evaluator module line hscope] at herror
  cases hpush : start.calls.push ⟨(state.store.get ref).displayName, module, line⟩ with
  | error cause =>
    rw [hpush] at herror
    cases herror
    exact .inl ⟨cause, rfl⟩
  | ok calls =>
    rw [hpush] at herror
    right
    refine ⟨.body (state.store.get ref) scope start calls, ?_, Result.leaveCall_eq_error herror⟩
    exact (asks_callFunction_iff hscope).mpr ⟨calls, hpush, rfl⟩

/-- A construct fails with a new error or with an error of a visit that it asked for. -/
theorem Composed.error_cases {layer : Layer} {α : Type} {construct : Construct α}
    (hcomposed : Composed layer construct) {evaluator : Evaluator} {state after : State}
    {error : RuntimeError}
    (herror : construct evaluator state = .interrupted (.error error) after) :
    (∃ cause, error = .ofCause cause) ∨
      ∃ visit, Asks construct evaluator state visit ∧
        evaluator.Interrupted visit (.error error) := by
  induction hcomposed generalizing state with
  | @plain α computation hplain =>
    have hresult := hplain.ends state
    have herror : computation state = .interrupted (.error error) after := herror
    rw [herror] at hresult
    obtain ⟨_, cause, hcause⟩ := hresult
    cases hcause
    exact .inl ⟨cause, rfl⟩
  | query hquery =>
    cases hquery with
    | @task layer task hcontains =>
      exact .inr ⟨⟨task, state⟩, asks_perform_iff.mpr rfl, after, herror⟩
    | call ref arguments module line => exact callFunction_error herror
    | attempt scope body catchBlock finallyBlock => exact .inr (executeAttempt_interrupted herror)
  | @bind α β first next hfirst hnext ihfirst ihnext =>
    simp only [Eval.bind_apply] at herror
    cases h : first evaluator state with
    | value value middle =>
      rw [h] at herror
      rcases ihnext value herror with hcause | ⟨visit, hasks, hfails⟩
      · exact .inl hcause
      · exact .inr ⟨visit, hfirst.asks_bind_iff.mpr (.inr ⟨value, middle, h, hasks⟩), hfails⟩
    | interrupted interrupt middle =>
      rw [h] at herror
      cases herror
      rcases ihfirst h with hcause | ⟨visit, hasks, hfails⟩
      · exact .inl hcause
      · exact .inr ⟨visit, hfirst.asks_bind_iff.mpr (.inl hasks), hfails⟩
    | halted reason =>
      rw [h] at herror
      cases herror
  | rounds hrounds ih => exact ih evaluator.rounds herror

/-- A block fails with an error of one of its statements. -/
theorem executeRow_error {scope : Scope} {last : Value} {statements : List Statement}
    {evaluator : Evaluator} {state after : State} {error : RuntimeError}
    (herror : executeRow evaluator scope last statements state =
      .interrupted (.error error) after) : ∃ statement start,
      Asks (fun e => executeRow e scope last statements) evaluator state
        ⟨.statement scope statement, start⟩ ∧
        evaluator.Interrupted ⟨.statement scope statement, start⟩ (.error error) := by
  induction statements generalizing last state with
  | nil => cases herror
  | cons statement others ih =>
    have hstatement : Composed .block fun e => e.perform (.statement scope statement) :=
      .task trivial
    cases h : evaluator.statement scope statement state with
    | halted reason =>
      simp only [executeRow, Eval.bind_apply, h, Result.andThen] at herror
      cases herror
    | interrupted interrupt middle =>
      simp only [executeRow, Eval.bind_apply, h, Result.andThen] at herror
      cases herror
      refine ⟨statement, state, ?_, after, h⟩
      exact hstatement.asks_bind_iff.mpr (.inl (asks_perform_iff.mpr rfl))
    | value signal middle =>
      simp only [executeRow, Eval.bind_apply, h, Result.andThen] at herror
      cases signal with
      | value given =>
        obtain ⟨inner, start, hasks, hfails⟩ := ih herror
        exact ⟨inner, start, hstatement.asks_bind_iff.mpr (.inr ⟨_, middle, h, hasks⟩), hfails⟩
      | returned given => cases herror
      | exit exit => cases herror

namespace Escapes

variable {host : Host} {error : RuntimeError} {steps left : Nat} {visit origin : Visit}

/-- Where an error arose, it got the statement's line as its location and the calls active at the
beginning of the statement as its trace. -/
theorem located (hescapes : Escapes host error steps visit left origin) :
    ∃ scope statement state, origin = ⟨.statement scope statement, state⟩ ∧
      error.location? = some ⟨scope.module, statement.line⟩ ∧
      error.trace = state.calls.frames := by
  induction hescapes with
  | passes hleads hfails hescapes ih => exact ih
  | @arises steps scope statement state after cause hfresh hfails =>
    obtain ⟨final, hfinal⟩ := hfails
    have hcalls : after.calls = state.calls :=
      (Composed.executeForm host scope statement.form).calls_eq
        (Evaluator.balanced_ofSteps host steps) (congrArg Result.after? hfresh)
    rw [Evaluator.outcome_ofSteps_succ] at hfinal
    simp only [Task.construct, executeStatement_apply, hfresh, Result.settled] at hfinal
    cases hfinal
    refine ⟨scope, statement, state, rfl, rfl, ?_⟩
    rw [← hcalls]
    rfl

/-- The visit that an error escapes from reaches the statement in which the error arose. -/
theorem reaches (hescapes : Escapes host error steps visit left origin) :
    Reaches host steps visit left origin := by
  induction hescapes with
  | arises hfresh hfails => exact .refl _ _
  | passes hleads hfails hescapes ih => exact .step hleads ih

end Escapes

/-- A statement fails with what its form failed with, which has an origin from then on. -/
theorem Result.settled_eq_error {scope : Scope} {line : Nat} {result : Result Signal}
    {error : RuntimeError} {after : State}
    (herror : result.settled scope line = .interrupted (.error error) after) :
    ∃ raised, result = .interrupted (.error raised) after ∧
      error = raised.locate ⟨scope.module, line⟩ after.calls.frames := by
  cases result with
  | value signal middle => cases herror
  | interrupted interrupt middle =>
    cases interrupt with
    | error raised =>
      cases herror
      exact ⟨raised, rfl, rfl⟩
    | loopExit exit => cases herror
  | halted reason => cases herror

/-- An error whose origin is known keeps it. -/
theorem RuntimeError.locate_of_located {error : RuntimeError} {known : Location}
    (hknown : error.location? = some known) (location : Location) (trace : List Frame) :
    error.locate location trace = error := by
  unfold locate
  rw [hknown]

/-- An error that a visit ends with escapes from there, unless it is a new one of an expression. -/
theorem escapes_of_fails (host : Host) {steps : Nat} {visit : Visit} {error : RuntimeError}
    (hfails : (Evaluator.ofSteps host steps).Interrupted visit (.error error)) :
    (∃ left origin, Escapes host error steps visit left origin) ∨
      (visit.task.layer = .expression ∧ ∃ cause, error = .ofCause cause) := by
  induction steps generalizing visit error with
  | zero =>
    obtain ⟨after, hafter⟩ := hfails
    rw [Evaluator.outcome_ofSteps_zero] at hafter
    cases hafter
  | succ steps ih =>
    obtain ⟨after, hafter⟩ := id hfails
    rw [Evaluator.outcome_ofSteps_succ] at hafter
    obtain ⟨task, state⟩ := visit
    cases task with
    | expression scope part =>
      rcases (Composed.evaluateExpression host scope part).error_cases hafter with
        hcause | ⟨inner, hasks, hinner⟩
      · exact .inr ⟨rfl, hcause⟩
      · rcases ih hinner with ⟨left, origin, hescapes⟩ | ⟨_, hcause⟩
        · exact .inl ⟨left, origin, .passes hasks hfails hescapes⟩
        · exact .inr ⟨rfl, hcause⟩
    | block scope parts =>
      left
      obtain ⟨statement, start, hasks, hinner⟩ := executeRow_error hafter
      rcases ih hinner with ⟨left, origin, hescapes⟩ | ⟨hlayer, _⟩
      · exact ⟨left, origin, .passes hasks hfails hescapes⟩
      · cases hlayer
    | statement scope part =>
      left
      simp only [Task.construct, executeStatement_apply] at hafter
      obtain ⟨raised, hraised, hlocate⟩ := Result.settled_eq_error hafter
      have harises {cause : Cause} (hcause : raised = .ofCause cause) :
          ∃ left origin,
            Escapes host error (steps + 1) ⟨.statement scope part, state⟩ left origin :=
        ⟨_, _, .arises (hcause ▸ hraised) hfails⟩
      rcases (Composed.executeForm host scope part.form).error_cases hraised with
        ⟨cause, hcause⟩ | ⟨inner, hasks, hinner⟩
      · exact harises hcause
      · rcases ih hinner with ⟨left, origin, hescapes⟩ | ⟨_, cause, hcause⟩
        · -- The error has its origin already, so this statement does not change it.
          obtain ⟨_, _, _, _, hknown, _⟩ := hescapes.located
          rw [RuntimeError.locate_of_located hknown] at hlocate
          subst hlocate
          have hleads : Leads host steps ⟨.statement scope part, state⟩ inner :=
            Task.asks_construct_iff.mpr hasks
          exact ⟨left, origin, .passes hleads hfails hescapes⟩
        · exact harises hcause

/-- What interrupts a block is an error that has its origin already. -/
theorem Evaluator.block_located (host : Host) (steps : Nat) {scope : Scope}
    {parts : List Statement} {state after : State} {interrupt : Interrupt}
    (hinterrupted : (ofSteps host steps).block scope parts state = .interrupted interrupt after) :
    ∃ error location, interrupt = .error error ∧ error.location? = some location := by
  cases interrupt with
  | loopExit exit =>
    exact absurd hinterrupted (confined_block host steps scope parts state exit after)
  | error error =>
    have hfails : (ofSteps host steps).Interrupted ⟨.block scope parts, state⟩ (.error error) :=
      ⟨after, hinterrupted⟩
    rcases escapes_of_fails host hfails with ⟨left, origin, hescapes⟩ | ⟨hlayer, _⟩
    · obtain ⟨originScope, statement, _, _, hlocation, _⟩ := hescapes.located
      exact ⟨error, _, rfl, hlocation⟩
    · cases hlayer

/-- An error that a statement fails with has a location: the line of the innermost statement that
it escaped from, in which it arose and from which it escaped unchanged through all that is around.
Its trace is the list of calls that were active there, the innermost first: those entered since the
outer statement began, and then exactly those of that beginning. -/
theorem error_located_where_it_arose (host : Host) (steps : Nat) (scope : Scope)
    (statement : Statement) (state after : State) (error : RuntimeError)
    (herror : executeStatement host (.ofSteps host steps) scope statement state =
      .interrupted (.error error) after) :
    ∃ left originScope origin originState,
      Escapes host error (steps + 1) ⟨.statement scope statement, state⟩
        left ⟨.statement originScope origin, originState⟩ ∧
      error.location? = some ⟨originScope.module, origin.line⟩ ∧
      error.trace = originState.calls.frames ∧
      (∃ entered, error.trace = entered ++ state.calls.frames) ∧
      error.trace.length ≤ state.calls.maxDepth := by
  have hfails : (Evaluator.ofSteps host (steps + 1)).Interrupted
    ⟨.statement scope statement, state⟩ (.error error) := ⟨after, herror⟩
  rcases escapes_of_fails host hfails with ⟨left, origin, hescapes⟩ | ⟨hlayer, _⟩
  · obtain ⟨originScope, inner, originState, rfl, hlocation, htrace⟩ := hescapes.located
    have hextends := hescapes.reaches.extends
    refine ⟨left, originScope, inner, originState, hescapes, hlocation, htrace, ?_, ?_⟩
    · rw [htrace]
      exact hextends.frames
    · rw [htrace]
      exact hextends.length_le
  · cases hlayer

/-- A name that is not bound, on the third line of a function that is called on the second one: the
error is located on the third line, inside one call. -/
theorem error_located_in_called_function :
    let missing : Statement := ⟨.expression ⟨.identifier "missing", default⟩, ⟨8, 15, 3⟩⟩
    let calling : Statement :=
      ⟨.expression ⟨.call ⟨.function [] ⟨[missing], default⟩, default⟩ [], ⟨0, 19, 2⟩⟩, ⟨0, 19, 2⟩⟩
    let host : Host := ⟨false, .fromMemory [], []⟩
    ∃ error after, executeStatement host (.ofSteps host 6) default calling default =
        .interrupted (.error error) after ∧
      error.location? = some ⟨"", 3⟩ ∧ error.trace = [⟨"<anonymous>", "", 2⟩] ∧
      ∃ left originScope origin originState,
        Escapes host error 7 ⟨.statement default calling, default⟩ left
          ⟨.statement originScope origin, originState⟩ ∧
        error.location? = some ⟨originScope.module, origin.line⟩ := by
  intro missing calling host
  obtain ⟨error, after, herror, hlocation, htrace⟩ : ∃ error after,
      executeStatement host (.ofSteps host 6) default calling default =
        .interrupted (.error error) after ∧
      error.location? = some ⟨"", 3⟩ ∧ error.trace = [⟨"<anonymous>", "", 2⟩] :=
    ⟨_, _, rfl, rfl, rfl⟩
  obtain ⟨left, originScope, origin, originState, hescapes, horigin, _⟩ :=
    error_located_where_it_arose host 6 default calling default after error herror
  exact ⟨error, after, herror, hlocation, htrace, left, originScope, origin, originState, hescapes,
    horigin⟩

end Kestrel
