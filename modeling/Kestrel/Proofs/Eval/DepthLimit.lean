import Kestrel.Proofs.Eval.CallBalance
import Kestrel.Run

/-!
# The limit on active calls

The limit matters to a run only where a call is refused. This file compares two runs of one task
from states that differ in the limit alone. If the run with the higher limit never has more active
calls than the lower one allows, both end in the same way.

An error for too many calls can be caught, and its message names the limit. The two runs are
therefore compared call by call: a construct does the same under both limits if every visit that it
asks for does.
-/

namespace Kestrel

/-- One call stack has the same calls as another one, and allows no more. -/
structure CallStack.Lowers (lower upper : CallStack) : Prop where
  frames : lower.frames = upper.frames
  maxDepth_le : lower.maxDepth ≤ upper.maxDepth

namespace CallStack.Lowers

variable {lower upper : CallStack}

/-- As many calls are active in both. -/
theorem depth_eq (hlowers : lower.Lowers upper) : lower.depth = upper.depth := by
  rw [lower.depth_eq, upper.depth_eq, hlowers.frames]

/-- A call that is refused under the higher limit is refused under the lower one, with the same
error: the two limits are then equal. -/
theorem push_error (hlowers : lower.Lowers upper) {frame : Frame} {cause : Cause}
    (hpush : upper.push frame = .error cause) : lower.push frame = .error cause := by
  obtain ⟨hfull, rfl⟩ := push_eq_error_iff.mp hpush
  have hdepth := hlowers.depth_eq
  have hle := lower.depth_le
  have hlimit := hlowers.maxDepth_le
  have heq : lower.maxDepth = upper.maxDepth := by omega
  exact push_eq_error_iff.mpr ⟨by omega, by rw [heq]⟩

/-- A call that is entered under the higher limit is entered under the lower one, if that one
allows as many calls. -/
theorem push_ok (hlowers : lower.Lowers upper) {frame : Frame} {pushed : CallStack}
    (hpush : upper.push frame = .ok pushed) (hroom : pushed.frames.length ≤ lower.maxDepth) :
    ∃ entered, lower.push frame = .ok entered ∧ entered.Lowers pushed ∧
      entered.maxDepth = lower.maxDepth := by
  rw [frames_of_push hpush, List.length_cons, ← upper.depth_eq, ← hlowers.depth_eq] at hroom
  cases hlower : lower.push frame with
  | error cause =>
    have hfull := (push_eq_error_iff.mp hlower).1
    omega
  | ok entered =>
    refine ⟨entered, rfl, ⟨?_, ?_⟩, maxDepth_of_push hlower⟩
    · rw [frames_of_push hlower, frames_of_push hpush, hlowers.frames]
    · rw [maxDepth_of_push hlower, maxDepth_of_push hpush]
      exact hlowers.maxDepth_le

end CallStack.Lowers

section Parts

/-- Giving arguments to parameters is plain. -/
theorem Eval.Plain.bindParameters (scope : Scope) (parameters : List String)
    (arguments : List Value) : (Kestrel.bindParameters scope parameters arguments).Plain := by
  induction parameters generalizing arguments with
  | nil => exact pure _
  | cons parameter parameters ih =>
    cases arguments with
    | nil => exact bind (bindName _ _ _) fun _ => ih []
    | cons argument arguments => exact bind (bindName _ _ _) fun _ => ih arguments

/-- Making the scope of a call is plain. -/
theorem Eval.Plain.callScope (closure : Closure) (arguments : List Value) :
    (Kestrel.callScope closure arguments).Plain := by
  unfold Kestrel.callScope
  refine bind (newScope _) fun scope => bind (bindParameters _ _ _) fun _ => ?_
  cases closure.receiver? <;> simp

/-- The call that a function's body leaves is the one that was entered for it. -/
theorem Result.leaveCall_withCalls {entered calls : CallStack} {frame : Frame}
    (hpush : calls.push frame = .ok entered) (result : Result Signal) :
    (result.withCalls entered).leaveCall = result.leaveCall.withCalls calls := by
  have hpop := CallStack.pop_of_push hpush
  cases result with
  | value signal after => cases signal <;> simp [withCalls, leaveCall, State.leaveCall, hpop]
  | interrupted interrupt after => simp [withCalls, leaveCall, State.leaveCall, hpop]
  | halted reason => rfl

/-- A finally block ends in the same way with other calls active. -/
theorem Result.afterFinally_withCalls (calls : CallStack) (pending finished : Result Signal) :
    (pending.withCalls calls).afterFinally (finished.withCalls calls) =
      (pending.afterFinally finished).withCalls calls := by
  cases finished with
  | interrupted interrupt after => rfl
  | halted reason => rfl
  | value signal after =>
    cases signal with
    | returned given => rfl
    | exit exit => rfl
    | value given => cases pending <;> rfl

/-- The end of a statement depends on the active calls through their frames only. -/
theorem Result.settled_withCalls {scope : Scope} {line : Nat} {result : Result Signal}
    {calls : CallStack} (hframes : ∀ after, result.after? = some after →
      calls.frames = after.calls.frames) :
    (result.withCalls calls).settled scope line =
      (result.settled scope line).withCalls calls := by
  cases result with
  | value signal after => rfl
  | halted reason => rfl
  | interrupted interrupt after =>
    cases interrupt with
    | loopExit exit => rfl
    | error error => simp only [withCalls, settled, hframes after rfl]

end Parts

/-- A visit does without any more active calls than a limit: it has no more itself, and it ends in
the same way if this is the limit. -/
structure Evaluator.Suffices (evaluator : Evaluator) (limit : Nat) (visit : Visit) : Prop where
  length_le : visit.state.calls.frames.length ≤ limit
  outcome_eq (lower : CallStack) (hlowers : lower.Lowers visit.state.calls)
    (hlimit : lower.maxDepth = limit) :
    evaluator.perform visit.task { visit.state with calls := lower } =
      (evaluator.outcome visit).withCalls lower

section Constructs

variable {evaluator : Evaluator} {lower : CallStack} {state : State}

/-- A call does the same under the lower limit if the function's body does. -/
theorem callFunction_withCalls {ref : Ref .function} {arguments : List Value} {module : String}
    {line : Nat} (hlowers : lower.Lowers state.calls)
    (hsuffices : ∀ visit, Asks (fun e => callFunction e ref arguments module line) evaluator state
      visit → evaluator.Suffices lower.maxDepth visit) :
    callFunction evaluator ref arguments module line { state with calls := lower } =
      (callFunction evaluator ref arguments module line state).withCalls lower := by
  obtain ⟨scope, start, hscope, hstart⟩ :=
    callScope_eq_value (state.store.get ref) arguments state
  have hscope' : callScope (state.store.get ref) arguments { state with calls := lower } =
      .value scope { start with calls := lower } := by
    rw [(Eval.Plain.callScope _ _).withCalls, hscope]
    rfl
  have happly := @callFunction_apply ref arguments { state with calls := lower }
    { start with calls := lower } scope evaluator module line hscope'
  rw [callFunction_apply evaluator module line hscope, happly]
  cases hpush : state.calls.push ⟨(state.store.get ref).displayName, module, line⟩ with
  | error cause =>
    rw [hstart, hpush]
    simp only [hlowers.push_error hpush, Result.withCalls]
  | ok calls =>
    have hbody := hsuffices (.body (state.store.get ref) scope start calls)
      ((asks_callFunction_iff hscope).mpr ⟨calls, hstart ▸ hpush, rfl⟩)
    obtain ⟨entered, hentered, henteredLowers, henteredLimit⟩ :=
      hlowers.push_ok hpush hbody.length_le
    rw [hstart, hpush]
    simp only [hentered]
    rw [← Result.leaveCall_withCalls hentered]
    exact congrArg Result.leaveCall (hbody.outcome_eq entered henteredLowers henteredLimit)

/-- A catch block does the same under the lower limit, from a body that did. -/
theorem Evaluator.afterBody_withCalls {scope : Scope} {catchBlock : Option Block}
    {bodyEnd : Result Signal}
    (hlowers : ∀ middle, bodyEnd.after? = some middle → lower.Lowers middle.calls)
    (hsuffices : ∀ interrupt middle block, bodyEnd = .interrupted interrupt middle →
      catchBlock = some block →
        evaluator.Suffices lower.maxDepth (.handling scope block interrupt middle)) :
    evaluator.afterBody scope catchBlock (bodyEnd.withCalls lower) =
      (evaluator.afterBody scope catchBlock bodyEnd).withCalls lower := by
  cases bodyEnd with
  | value signal middle => rfl
  | halted reason => rfl
  | interrupted interrupt middle =>
    cases catchBlock with
    | none => rfl
    | some block =>
      exact (hsuffices interrupt middle block rfl rfl).outcome_eq lower (hlowers middle rfl) rfl

/-- A finally block does the same under the lower limit, from a pending end that is the same. -/
theorem Evaluator.afterPending_withCalls {scope : Scope} {finallyBlock : Option Block}
    {pending : Result Signal}
    (hlowers : ∀ middle, pending.after? = some middle → lower.Lowers middle.calls)
    (hsuffices : ∀ middle block, pending.after? = some middle → finallyBlock = some block →
      evaluator.Suffices lower.maxDepth (.scoped scope block middle)) :
    evaluator.afterPending scope finallyBlock (pending.withCalls lower) =
      (evaluator.afterPending scope finallyBlock pending).withCalls lower := by
  cases finallyBlock with
  | none => rfl
  | some block =>
    have hfinished (middle : State) (hmiddle : pending.after? = some middle) :
        evaluator.outcome (.scoped scope block { middle with calls := lower }) =
          (evaluator.outcome (.scoped scope block middle)).withCalls lower :=
      (hsuffices middle block hmiddle rfl).outcome_eq lower (hlowers middle hmiddle) rfl
    cases pending with
    | halted reason => rfl
    | value signal middle =>
      exact (congrArg _ (hfinished middle rfl)).trans (Result.afterFinally_withCalls _ _ _)
    | interrupted interrupt middle =>
      exact (congrArg _ (hfinished middle rfl)).trans (Result.afterFinally_withCalls _ _ _)

/-- A `try` statement does the same under the lower limit if its blocks do. -/
theorem executeAttempt_withCalls {scope : Scope} {body : Block}
    {catchBlock finallyBlock : Option Block} (hbalanced : evaluator.Balanced)
    (hlowers : lower.Lowers state.calls)
    (hsuffices : ∀ visit, Asks (fun e => executeAttempt e scope body catchBlock finallyBlock)
      evaluator state visit → evaluator.Suffices lower.maxDepth visit) :
    executeAttempt evaluator scope body catchBlock finallyBlock { state with calls := lower } =
      (executeAttempt evaluator scope body catchBlock finallyBlock state).withCalls lower := by
  have hbody := (hsuffices (.scoped scope body state)
    (asks_executeAttempt_iff.mpr (.inl (.inl rfl)))).outcome_eq lower hlowers rfl
  have hbodyCalls (middle : State)
      (hmiddle : (evaluator.outcome (.scoped scope body state)).after? = some middle) :
      middle.calls = state.calls :=
    hbalanced _ _ hmiddle
  have hpending : evaluator.pendingEnd scope body catchBlock { state with calls := lower } =
      (evaluator.pendingEnd scope body catchBlock state).withCalls lower := by
    refine (congrArg (evaluator.afterBody scope catchBlock) hbody).trans
      (Evaluator.afterBody_withCalls (fun middle hmiddle => ?_)
        fun interrupt middle block hend hcatch => ?_)
    · exact hbodyCalls middle hmiddle ▸ hlowers
    · exact hsuffices _ (asks_executeAttempt_iff.mpr
        (.inl (.inr ⟨interrupt, middle, block, hend, hcatch, rfl⟩)))
  rw [executeAttempt_apply, executeAttempt_apply, hpending]
  refine Evaluator.afterPending_withCalls (fun middle hmiddle => ?_)
    fun middle block hmiddle hfinally => ?_
  · have hcalls : middle.calls = state.calls := hbalanced.afterBody hbodyCalls hmiddle
    exact hcalls ▸ hlowers
  · exact hsuffices _ (asks_executeAttempt_iff.mpr (.inr ⟨middle, block, hmiddle, hfinally, rfl⟩))

/-- Every construct does the same under the lower limit if every visit that it asks for does. -/
theorem Composed.withCalls {layer : Layer} {α : Type} {construct : Construct α}
    (hcomposed : Composed layer construct) (hbalanced : evaluator.Balanced)
    (hlowers : lower.Lowers state.calls)
    (hsuffices : ∀ visit, Asks construct evaluator state visit →
      evaluator.Suffices lower.maxDepth visit) :
    construct evaluator { state with calls := lower } =
      (construct evaluator state).withCalls lower := by
  induction hcomposed generalizing state with
  | plain hplain => exact hplain.withCalls state lower
  | query hquery =>
    cases hquery with
    | @task layer task hcontains =>
      exact (hsuffices ⟨task, state⟩ (asks_perform_iff.mpr rfl)).outcome_eq lower hlowers rfl
    | call ref arguments module line => exact callFunction_withCalls hlowers hsuffices
    | attempt scope body catchBlock finallyBlock =>
      exact executeAttempt_withCalls hbalanced hlowers hsuffices
  | @bind α β first next hfirst hnext ihfirst ihnext =>
    have hfirstEq := ihfirst hlowers fun visit hasks =>
      hsuffices visit (hfirst.asks_bind_iff.mpr (.inl hasks))
    simp only [Eval.bind_apply, hfirstEq]
    cases h : first evaluator state with
    | value value middle =>
      have hcalls : middle.calls = state.calls := hfirst.calls_eq hbalanced (by rw [h]; rfl)
      exact ihnext value (hcalls ▸ hlowers) fun visit hasks =>
        hsuffices visit (hfirst.asks_bind_iff.mpr (.inr ⟨value, middle, h, hasks⟩))
    | interrupted interrupt middle => rfl
    | halted reason => rfl
  | rounds hrounds ih => exact ih evaluator.rounds hlowers hsuffices

/-- Every task does the same under the lower limit if every visit that it leads to does. -/
theorem Task.construct_withCalls (host : Host) (task : Task) (hbalanced : evaluator.Balanced)
    (hlowers : lower.Lowers state.calls)
    (hsuffices : ∀ visit, Asks (task.construct host) evaluator state visit →
      evaluator.Suffices lower.maxDepth visit) :
    task.construct host evaluator { state with calls := lower } =
      (task.construct host evaluator state).withCalls lower := by
  have hunsettled := (task.composed_unsettled host).withCalls hbalanced hlowers
    fun visit hasks => hsuffices visit (Task.asks_construct_iff.mpr hasks)
  cases task with
  | expression scope part => exact hunsettled
  | block scope parts => exact hunsettled
  | statement scope part =>
    simp only [construct, executeStatement_apply]
    refine (congrArg (Result.settled scope part.line) hunsettled).trans
      (Result.settled_withCalls fun after hafter => ?_)
    have hcalls := (Composed.executeForm host scope part.form).calls_eq hbalanced hafter
    rw [hcalls]
    exact hlowers.frames

end Constructs

/-- So many active calls are enough for a visit: the evaluation never comes to a visit with more of
them. -/
def Visit.StaysWithin (host : Host) (steps limit : Nat) (visit : Visit) : Prop :=
  ∀ left inner, Reaches host steps visit left inner → inner.state.calls.frames.length ≤ limit

/-- A visit never has more active calls than it begins with and steps to enter some. -/
theorem Visit.staysWithin_of_steps {host : Host} {steps limit : Nat} {visit : Visit}
    (hsteps : visit.state.calls.frames.length + steps ≤ limit) :
    visit.StaysWithin host steps limit := by
  intro left inner hreaches
  have hlength := hreaches.length_add_le
  omega

/-- A visit for which a limit is enough ends in the same way if this is the limit. -/
theorem Evaluator.suffices_of_staysWithin (host : Host) {steps limit : Nat} {visit : Visit}
    (hwithin : visit.StaysWithin host steps limit) :
    (ofSteps host steps).Suffices limit visit := by
  induction steps generalizing visit with
  | zero =>
    refine ⟨hwithin 0 visit (.refl _ _), fun lower hlowers hlimit => ?_⟩
    rw [outcome_ofSteps_zero]
    exact outcome_ofSteps_zero host ⟨visit.task, { visit.state with calls := lower }⟩
  | succ steps ih =>
    refine ⟨hwithin (steps + 1) visit (.refl _ _), fun lower hlowers hlimit => ?_⟩
    rw [outcome_ofSteps_succ, perform_ofSteps_succ]
    refine Task.construct_withCalls host visit.task (balanced_ofSteps host steps) hlowers
      fun inner hleads => ?_
    rw [hlimit]
    exact ih fun left innermost hreaches => hwithin left innermost (.step hleads hreaches)

/-- A program does the same under the lower limit if that one is enough for its block. -/
theorem executeProgram_withCalls {host : Host} {steps : Nat} {scope : Scope}
    {statements : List Statement} {state : State} {lower : CallStack}
    (hlowers : lower.Lowers state.calls)
    (hwithin : Visit.StaysWithin host steps lower.maxDepth ⟨.block scope statements, state⟩) :
    executeProgram (.ofSteps host steps) scope statements { state with calls := lower } =
      (executeProgram (.ofSteps host steps) scope statements state).withCalls lower := by
  refine (Composed.executeProgram scope statements).withCalls
    (Evaluator.balanced_ofSteps host steps) hlowers fun visit hasks => ?_
  rw [asks_executeProgram_iff.mp hasks]
  exact Evaluator.suffices_of_staysWithin host hwithin

/-- The end of a run is that of its computation, whatever calls are active. -/
theorem Result.toRun_withCalls (result : Result Value) (calls : CallStack) :
    (result.withCalls calls).toRun =
      result.toRun.mapEnd fun outcome after => (outcome, { after with calls }) := by
  cases result <;> rfl

/-- A limit that is higher than needed makes no difference. Let two states differ in the limit on
active calls alone, and let the lower limit be enough for what is done from the state with the
higher one. Then from the other state it ends with the same value, signal or error, with the same
location and trace, after the same output and with the same cells; only the limit is another one.
This holds of expressions, statements and blocks, of programs, and of the runs of source texts. -/
theorem unneeded_room_changes_nothing (host : Host) (state : State) (lower : CallStack)
    (hlowers : lower.Lowers state.calls) :
    (∀ steps task, Visit.StaysWithin host steps lower.maxDepth ⟨task, state⟩ →
      (Evaluator.ofSteps host steps).perform task { state with calls := lower } =
        ((Evaluator.ofSteps host steps).perform task state).withCalls lower) ∧
    (∀ steps scope statements,
      Visit.StaysWithin host steps lower.maxDepth ⟨.block scope statements, state⟩ →
        executeProgram (.ofSteps host steps) scope statements { state with calls := lower } =
          (executeProgram (.ofSteps host steps) scope statements state).withCalls lower) ∧
    (∀ source scope,
      (∀ program, parseProgram source (some scope.module) = .ok program →
        Visit.StaysWithin host stepLimit lower.maxDepth
          ⟨.block scope program.statements, state⟩) →
        evaluateIn host source scope { state with calls := lower } =
          (evaluateIn host source scope state).mapEnd fun outcome after =>
            (outcome, { after with calls := lower })) := by
  refine ⟨fun steps task hwithin => ?_, fun steps scope statements hwithin => ?_,
    fun source scope hwithin => ?_⟩
  · exact (Evaluator.suffices_of_staysWithin host hwithin).outcome_eq lower hlowers rfl
  · exact executeProgram_withCalls hlowers hwithin
  · unfold evaluateIn
    cases hprogram : parseProgram source (some scope.module) with
    | error error => rfl
    | ok program =>
      simp only [Host.evaluator, executeProgram_withCalls hlowers (hwithin program hprogram),
        Result.toRun_withCalls]

/-- A program whose first line calls a function that fails: with room for eight calls instead of a
thousand, it fails with the same error, which has the call in its trace. -/
theorem failing_call_needs_no_room_for_a_thousand :
    let missing : Statement := ⟨.expression ⟨.identifier "missing", default⟩, ⟨8, 15, 2⟩⟩
    let calling : Statement :=
      ⟨.expression ⟨.call ⟨.function [] ⟨[missing], default⟩, default⟩ [], ⟨0, 19, 1⟩⟩, ⟨0, 19, 1⟩⟩
    let host : Host := ⟨false, .fromMemory [], []⟩
    let state : State := ⟨.empty, .empty 1000, .empty⟩
    (CallStack.empty 8).Lowers state.calls ∧
    Visit.StaysWithin host 8 8 ⟨.block default [calling], state⟩ ∧
    ∃ error after,
      executeProgram (.ofSteps host 8) default [calling] state =
        .interrupted (.error error) after ∧
      error.trace = [⟨"<anonymous>", "", 1⟩] ∧
      executeProgram (.ofSteps host 8) default [calling] { state with calls := .empty 8 } =
        .interrupted (.error error) { after with calls := .empty 8 } := by
  intro missing calling host state
  have hlowers : (CallStack.empty 8).Lowers state.calls := ⟨rfl, by decide⟩
  have hwithin : Visit.StaysWithin host 8 8 ⟨.block default [calling], state⟩ :=
    Visit.staysWithin_of_steps (by decide)
  obtain ⟨error, after, herror, htrace⟩ : ∃ error after,
      executeProgram (.ofSteps host 8) default [calling] state =
        .interrupted (.error error) after ∧
      error.trace = [⟨"<anonymous>", "", 1⟩] :=
    ⟨_, _, rfl, rfl⟩
  refine ⟨hlowers, hwithin, error, after, herror, htrace, ?_⟩
  have hsame := (unneeded_room_changes_nothing host state (.empty 8) hlowers).2.1 8 default
    [calling] hwithin
  rw [hsame, herror]
  rfl

end Kestrel
