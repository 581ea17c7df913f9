import Kestrel.Proofs.Eval.Course

/-!
# The balance of the call stack

However an evaluation ends, the call stack is as it was at its beginning. While it goes on, every
visit finds the calls that were active at the beginning below those entered since, and there are
never more than the limit allows.
-/

namespace Kestrel

/-- One call stack is another one with some calls entered on top. -/
structure CallStack.Extends (stack base : CallStack) : Prop where
  frames : ∃ entered, stack.frames = entered ++ base.frames
  maxDepth : stack.maxDepth = base.maxDepth

/-- One call stack is another one, or the other one with one call entered on top. -/
def CallStack.Enters (stack base : CallStack) : Prop :=
  stack = base ∨ ∃ frame, base.push frame = .ok stack

/-- Entering a call makes the stack longer by one frame at most. -/
theorem CallStack.Enters.length_le {stack base : CallStack} (henters : stack.Enters base) :
    stack.frames.length ≤ base.frames.length + 1 := by
  rcases henters with rfl | ⟨frame, hpush⟩
  · exact Nat.le_succ _
  · exact Nat.le_of_eq (congrArg List.length (frames_of_push hpush))

namespace CallStack.Extends

/-- No call needs to be entered. -/
theorem refl (stack : CallStack) : stack.Extends stack := ⟨⟨[], rfl⟩, rfl⟩

/-- One call can be entered. -/
theorem of_enters {stack base : CallStack} (henters : stack.Enters base) :
    stack.Extends base := by
  rcases henters with rfl | ⟨frame, hpush⟩
  · exact refl stack
  · exact ⟨⟨[frame], frames_of_push hpush⟩, maxDepth_of_push hpush⟩

/-- Calls can be entered on top of calls. -/
theorem trans {inner middle outer : CallStack} (hinner : inner.Extends middle)
    (houter : middle.Extends outer) : inner.Extends outer := by
  obtain ⟨entered, hentered⟩ := hinner.frames
  obtain ⟨before, hbefore⟩ := houter.frames
  refine ⟨⟨entered ++ before, ?_⟩, hinner.maxDepth.trans houter.maxDepth⟩
  rw [hentered, hbefore, List.append_assoc]

/-- The limit of a call stack bounds those that extend it. -/
theorem length_le {stack base : CallStack} (hextends : stack.Extends base) :
    stack.frames.length ≤ base.maxDepth := by
  rw [← hextends.maxDepth, ← stack.depth_eq]
  exact stack.depth_le

end CallStack.Extends

/-- Every visit of an evaluator leaves the call stack as it finds it. -/
def Evaluator.Balanced (evaluator : Evaluator) : Prop :=
  ∀ visit after, (evaluator.outcome visit).after? = some after → after.calls = visit.state.calls

/-- A result of a plain computation leaves the call stack as it was. -/
theorem Result.Plain.calls_eq {α : Type} {before after : State} {result : Result α}
    (hplain : result.Plain before) (hafter : result.after? = some after) :
    after.calls = before.calls := by
  cases result with
  | value value final =>
    cases hafter
    exact hplain
  | interrupted interrupt final =>
    cases hafter
    exact hplain.1
  | halted reason => cases hafter

/-- Leaving a call pops one frame from the stack that the body left. -/
theorem Result.after?_leaveCall (result : Result Signal) :
    result.leaveCall.after? = result.after?.map State.leaveCall := by
  cases result with
  | value signal after => cases signal <;> rfl
  | interrupted interrupt after => rfl
  | halted reason => rfl

namespace Evaluator.Balanced

variable {evaluator : Evaluator} (hbalanced : evaluator.Balanced)

include hbalanced

/-- A call leaves the call stack as it was if its body does. -/
theorem callFunction {ref : Ref .function} {arguments : List Value} {module : String} {line : Nat}
    {state after : State}
    (hafter : (Kestrel.callFunction evaluator ref arguments module line state).after? =
      some after) : after.calls = state.calls := by
  obtain ⟨scope, start, hscope, hstart⟩ :=
    callScope_eq_value (state.store.get ref) arguments state
  rw [callFunction_apply evaluator module line hscope] at hafter
  cases hpush : start.calls.push ⟨(state.store.get ref).displayName, module, line⟩ with
  | error cause =>
    rw [hpush] at hafter
    cases hafter
    exact hstart
  | ok calls =>
    rw [hpush] at hafter
    simp only [Result.after?_leaveCall, Option.map_eq_some_iff] at hafter
    obtain ⟨final, hfinal, rfl⟩ := hafter
    have hbody : final.calls = calls :=
      hbalanced (.body (state.store.get ref) scope start calls) final hfinal
    calc final.calls.pop = calls.pop := by rw [hbody]
      _ = start.calls := CallStack.pop_of_push hpush
      _ = state.calls := hstart

/-- A catch block after a body leaves the call stack as the body left it. -/
theorem afterBody {scope : Scope} {catchBlock : Option Block} {bodyEnd : Result Signal}
    {calls : CallStack} {after : State}
    (hbody : ∀ middle, bodyEnd.after? = some middle → middle.calls = calls)
    (hafter : (evaluator.afterBody scope catchBlock bodyEnd).after? = some after) :
    after.calls = calls := by
  by_cases hcaught : ∃ interrupt middle block, bodyEnd = .interrupted interrupt middle ∧
      catchBlock = some block
  · obtain ⟨interrupt, middle, block, rfl, rfl⟩ := hcaught
    have hhandled := hbalanced (.handling scope block interrupt middle) after hafter
    exact hhandled.trans (hbody middle rfl)
  · apply hbody
    rwa [Evaluator.afterBody_of_not_caught _ _ hcaught] at hafter

/-- A finally block leaves the call stack as what comes before it left it. -/
theorem afterPending {scope : Scope} {finallyBlock : Option Block} {pending : Result Signal}
    {calls : CallStack} {after : State}
    (hpending : ∀ middle, pending.after? = some middle → middle.calls = calls)
    (hafter : (evaluator.afterPending scope finallyBlock pending).after? = some after) :
    after.calls = calls := by
  cases finallyBlock with
  | none => exact hpending after hafter
  | some block =>
    cases hmiddle : pending.after? with
    | none =>
      simp only [Evaluator.afterPending, hmiddle] at hafter
      cases hafter
    | some middle =>
      simp only [Evaluator.afterPending, hmiddle] at hafter
      have hfinished := hbalanced (.scoped scope block middle) after
        ((Result.after?_afterFinally hmiddle _).symm.trans hafter)
      exact hfinished.trans (hpending middle hmiddle)

/-- A `try` statement leaves the call stack as it was if its blocks do. -/
theorem executeAttempt {scope : Scope} {body : Block} {catchBlock finallyBlock : Option Block}
    {state after : State}
    (hafter : (Kestrel.executeAttempt evaluator scope body catchBlock finallyBlock state).after? =
      some after) : after.calls = state.calls := by
  rw [executeAttempt_apply] at hafter
  refine hbalanced.afterPending (fun pending hpending => ?_) hafter
  exact hbalanced.afterBody (fun middle hmiddle => hbalanced _ _ hmiddle) hpending

/-- A part begins its visits with the call stack that it finds, or inside one more call. -/
theorem enters_of_asks_query {layer : Layer} {α : Type} {query : Construct α}
    (hquery : Query layer query) {state : State} {visit : Visit}
    (hasks : Asks query evaluator state visit) : visit.state.calls.Enters state.calls := by
  cases hquery with
  | task hcontains =>
    rw [asks_perform_iff.mp hasks]
    exact .inl rfl
  | call ref arguments module line =>
    obtain ⟨scope, start, hscope, hstart⟩ :=
      callScope_eq_value (state.store.get ref) arguments state
    obtain ⟨calls, hpush, rfl⟩ := (asks_callFunction_iff hscope).mp hasks
    exact .inr ⟨_, hstart ▸ hpush⟩
  | attempt scope body catchBlock finallyBlock =>
    have hbody : ∀ middle, (evaluator.outcome (.scoped scope body state)).after? = some middle →
        middle.calls = state.calls := fun middle hmiddle => hbalanced _ _ hmiddle
    rcases asks_executeAttempt_iff.mp hasks with
      (rfl | ⟨interrupt, middle, block, hend, _, rfl⟩) | ⟨middle, block, hmiddle, _, rfl⟩
    · exact .inl rfl
    · have hcalls : middle.calls = state.calls := hbody middle (by rw [hend]; rfl)
      exact .inl hcalls
    · have hcalls : middle.calls = state.calls := hbalanced.afterBody hbody hmiddle
      exact .inl hcalls

end Evaluator.Balanced

/-- Every construct leaves the call stack as it was if the evaluator does. -/
theorem Composed.calls_eq {layer : Layer} {α : Type} {construct : Construct α}
    (hcomposed : Composed layer construct) {evaluator : Evaluator}
    (hbalanced : evaluator.Balanced) {state after : State}
    (hafter : (construct evaluator state).after? = some after) : after.calls = state.calls := by
  induction hcomposed generalizing state after with
  | plain hplain => exact (hplain.ends state).calls_eq hafter
  | query hquery =>
    cases hquery with
    | @task layer task hcontains => exact hbalanced ⟨task, state⟩ after hafter
    | call ref arguments module line => exact hbalanced.callFunction hafter
    | attempt scope body catchBlock finallyBlock => exact hbalanced.executeAttempt hafter
  | @bind α β first next hfirst hnext ihfirst ihnext =>
    simp only [Eval.bind_apply] at hafter
    cases h : first evaluator state with
    | value value middle =>
      rw [h] at hafter
      exact (ihnext value hafter).trans (ihfirst (by rw [h]; rfl))
    | interrupted interrupt middle =>
      rw [h] at hafter
      exact ihfirst (by rw [h]; exact hafter)
    | halted reason =>
      rw [h] at hafter
      cases hafter
  | rounds hrounds ih => exact ih evaluator.rounds hafter

/-- Every visit leaves the call stack as it was. -/
theorem Evaluator.balanced_ofSteps (host : Host) (steps : Nat) : (ofSteps host steps).Balanced := by
  induction steps with
  | zero =>
    intro visit after hafter
    rw [outcome_ofSteps_zero] at hafter
    cases hafter
  | succ steps ih =>
    intro visit after hafter
    rw [outcome_ofSteps_succ, Task.after?_construct] at hafter
    exact (visit.task.composed_unsettled host).calls_eq ih hafter

/-- A construct begins its visits with the call stack that it finds, or inside one more call. -/
theorem Composed.enters_of_asks {layer : Layer} {α : Type} {construct : Construct α}
    (hcomposed : Composed layer construct) {evaluator : Evaluator}
    (hbalanced : evaluator.Balanced) {state : State} {visit : Visit}
    (hasks : Asks construct evaluator state visit) : visit.state.calls.Enters state.calls := by
  induction hcomposed generalizing state with
  | plain hplain => exact absurd hasks (ignores_const _ _ _ _).not_asks
  | query hquery => exact hbalanced.enters_of_asks_query hquery hasks
  | bind hfirst hnext ihfirst ihnext =>
    rcases hfirst.asks_bind_iff.mp hasks with hasks | ⟨value, middle, hvalue, hasks⟩
    · exact ihfirst hasks
    · have hmiddle : (Result.value value middle).after? = some middle := rfl
      rw [← hvalue] at hmiddle
      have hcalls := hfirst.calls_eq hbalanced hmiddle
      exact hcalls ▸ ihnext value hasks
  | rounds hrounds ih => exact ih evaluator.rounds hasks

/-- A visit leads only to visits inside the same calls or one more. -/
theorem Leads.enters {host : Host} {steps : Nat} {outer inner : Visit}
    (hleads : Leads host steps outer inner) : inner.state.calls.Enters outer.state.calls :=
  (outer.task.composed_unsettled host).enters_of_asks (Evaluator.balanced_ofSteps host steps)
    (Task.asks_construct_iff.mp hleads)

/-- A visit reaches only visits inside the calls that were active at its beginning. -/
theorem Reaches.extends {host : Host} {steps left : Nat} {outer inner : Visit}
    (hreaches : Reaches host steps outer left inner) :
    inner.state.calls.Extends outer.state.calls := by
  induction hreaches with
  | refl steps visit => exact .refl _
  | step hleads _ ih => exact ih.trans (.of_enters hleads.enters)

/-- Each step enters one call at most, so the steps taken bound the calls entered. -/
theorem Reaches.length_add_le {host : Host} {steps left : Nat} {outer inner : Visit}
    (hreaches : Reaches host steps outer left inner) :
    inner.state.calls.frames.length + left ≤ outer.state.calls.frames.length + steps := by
  induction hreaches with
  | refl steps visit => exact Nat.le_refl _
  | step hleads _ ih =>
    have hlength := hleads.enters.length_le
    omega

/-- At the limit, a call of a function fails before its body, whatever the evaluator does. -/
theorem callFunction_at_limit {ref : Ref .function} {arguments : List Value} {module : String}
    {line : Nat} {state : State} (hfull : state.calls.depth = state.calls.maxDepth) :
    (∃ start, start.calls = state.calls ∧ ∀ evaluator,
      callFunction evaluator ref arguments module line state =
        .interrupted (.error (.ofCause (.depthExceeded state.calls.maxDepth))) start) ∧
      ∀ evaluator visit,
        ¬ Asks (fun e => callFunction e ref arguments module line) evaluator state visit := by
  obtain ⟨scope, start, hscope, hstart⟩ :=
    callScope_eq_value (state.store.get ref) arguments state
  have hpush : start.calls.push ⟨(state.store.get ref).displayName, module, line⟩ =
      .error (.depthExceeded state.calls.maxDepth) := by
    rw [hstart]
    exact CallStack.push_eq_error_iff.mpr ⟨hfull, rfl⟩
  refine ⟨⟨start, hstart, fun evaluator => ?_⟩, fun evaluator visit hasks => ?_⟩
  · rw [callFunction_apply evaluator module line hscope, hpush]
  · obtain ⟨calls, hcalls, _⟩ := (asks_callFunction_iff hscope).mp hasks
    rw [hpush] at hcalls
    cases hcalls

/-- Below the limit, a call of a function begins its body, inside one more call. -/
theorem callFunction_below_limit {ref : Ref .function} {arguments : List Value} {module : String}
    {line : Nat} {state : State} (hroom : state.calls.depth < state.calls.maxDepth)
    (evaluator : Evaluator) : ∃ visit,
      Asks (fun e => callFunction e ref arguments module line) evaluator state visit ∧
        visit.state.calls.frames =
          ⟨(state.store.get ref).displayName, module, line⟩ :: state.calls.frames := by
  obtain ⟨scope, start, hscope, hstart⟩ :=
    callScope_eq_value (state.store.get ref) arguments state
  cases hpush : start.calls.push ⟨(state.store.get ref).displayName, module, line⟩ with
  | error cause =>
    have hfull := (CallStack.push_eq_error_iff.mp hpush).1
    rw [hstart] at hfull
    omega
  | ok calls =>
    refine ⟨.body (state.store.get ref) scope start calls, ?_, ?_⟩
    · exact (asks_callFunction_iff hscope).mpr ⟨calls, hpush, rfl⟩
    · rw [← hstart]
      exact CallStack.frames_of_push hpush

/-- However an expression, a statement, a block or a program ends, its calls have been left. While
it goes on, the calls of its beginning stay active and there are never more calls than allowed. At
that limit a call of a function fails before anything of its body is begun, and below it the body
is begun inside the call. -/
theorem calls_restored_and_bounded (host : Host) (steps : Nat) :
    (∀ visit after, ((Evaluator.ofSteps host steps).outcome visit).after? = some after →
      after.calls = visit.state.calls) ∧
    (∀ scope statements state after,
      (executeProgram (.ofSteps host steps) scope statements state).after? = some after →
        after.calls = state.calls) ∧
    (∀ visit left inner, Reaches host steps visit left inner →
      inner.state.calls.Extends visit.state.calls ∧
        inner.state.calls.frames.length ≤ visit.state.calls.maxDepth) ∧
    (∀ scope statements state visit,
      Asks (fun e => executeProgram e scope statements) (.ofSteps host steps) state visit →
        visit.state.calls = state.calls) ∧
    (∀ ref arguments module line state, state.calls.depth = state.calls.maxDepth →
      (∃ start, start.calls = state.calls ∧ ∀ evaluator,
        callFunction evaluator ref arguments module line state =
          .interrupted (.error (.ofCause (.depthExceeded state.calls.maxDepth))) start) ∧
        ∀ evaluator visit,
          ¬ Asks (fun e => callFunction e ref arguments module line) evaluator state visit) ∧
    (∀ ref arguments module line state evaluator, state.calls.depth < state.calls.maxDepth →
      ∃ visit, Asks (fun e => callFunction e ref arguments module line) evaluator state visit ∧
        visit.state.calls.frames =
          ⟨(state.store.get ref).displayName, module, line⟩ :: state.calls.frames) := by
  have hbalanced := Evaluator.balanced_ofSteps host steps
  refine ⟨hbalanced, ?_, ?_, ?_, ?_, ?_⟩
  · intro scope statements state after hafter
    exact (Composed.executeProgram scope statements).calls_eq hbalanced hafter
  · intro visit left inner hreaches
    exact ⟨hreaches.extends, hreaches.extends.length_le⟩
  · intro scope statements state visit hasks
    rw [asks_executeProgram_iff.mp hasks]
  · intro ref arguments module line state hfull
    exact callFunction_at_limit hfull
  · intro ref arguments module line state evaluator hroom
    exact callFunction_below_limit hroom evaluator

/-- Of a function that calls itself, two calls are allowed at once and the third is refused. All are
left then: once more the function can be called, but not inside of two calls. -/
theorem calls_left_after_endless_recursion :
    let calling : Statement :=
      ⟨.expression ⟨.call ⟨.identifier "f", default⟩ [], ⟨8, 11, 2⟩⟩, ⟨8, 11, 2⟩⟩
    let declaration : FunctionDeclaration := ⟨⟨"f", default⟩, [], ⟨[calling], default⟩, default⟩
    let statements : List Statement := [⟨.function declaration, default⟩, calling]
    let host : Host := ⟨false, .fromMemory [], []⟩
    let main := Scope.ofMain .empty "main.kes"
    let state : State := ⟨main.2, .empty 2, .empty⟩
    let frame : Frame := ⟨"f", "main.kes", 2⟩
    let ref : Ref .function := ⟨0⟩
    let again := fun evaluator => callFunction evaluator ref [] "main.kes" 2
    ∃ error after, executeProgram (.ofSteps host 12) main.1 statements state =
        .interrupted (.error error) after ∧
      error.trace = [frame, frame] ∧ after.calls = state.calls ∧
      (∃ visit, Asks again (.ofSteps host 12) after visit ∧
        visit.state.calls.frames = [frame]) ∧
      ∃ calls, calls.frames = [frame, frame] ∧
        ∀ visit, ¬ Asks again (.ofSteps host 12) { after with calls } visit := by
  intro calling declaration statements host main state frame ref again
  obtain ⟨error, after, herror, htrace, hname⟩ : ∃ error after,
      executeProgram (.ofSteps host 12) main.1 statements state =
        .interrupted (.error error) after ∧
      error.trace = [frame, frame] ∧ (after.store.get ref).displayName = "f" :=
    ⟨_, _, rfl, rfl, rfl⟩
  obtain ⟨-, hprogram, -, -, hlimit, hroom⟩ := calls_restored_and_bounded host 12
  have hcalls : after.calls = state.calls :=
    hprogram main.1 statements state after (by rw [herror]; rfl)
  have hbelow : after.calls.depth < after.calls.maxDepth := by
    rw [hcalls]
    decide
  obtain ⟨visit, hasks, hframes⟩ := hroom ref [] "main.kes" 2 after (.ofSteps host 12) hbelow
  refine ⟨error, after, herror, htrace, hcalls, ⟨visit, hasks, ?_⟩, ?_⟩
  · rw [hframes, hname, hcalls]
    rfl
  · let calls : CallStack := ⟨[frame, frame], 2, 2, rfl, Nat.le_refl _⟩
    exact ⟨calls, rfl, (hlimit ref [] "main.kes" 2 { after with calls } rfl).2 _⟩

end Kestrel
