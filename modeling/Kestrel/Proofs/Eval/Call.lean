import Kestrel.Proofs.Eval.Visit

/-!
# Calls of functions

A call makes a scope, enters a frame, leaves the function's body to the evaluator, and leaves the
frame again. At the depth limit it fails instead, before the body. Whatever the body does, the call
ends by popping one frame from the stack that the body left.
-/

namespace Kestrel

namespace CallStack

/-- The frames after a push are the new one and those that were there. -/
theorem frames_of_push {stack pushed : CallStack} {frame : Frame}
    (hpush : stack.push frame = .ok pushed) : pushed.frames = frame :: stack.frames := by
  unfold push at hpush
  split at hpush
  · cases hpush
  · cases hpush
    rfl

/-- Entering a call does not change the limit. -/
theorem maxDepth_of_push {stack pushed : CallStack} {frame : Frame}
    (hpush : stack.push frame = .ok pushed) : pushed.maxDepth = stack.maxDepth := by
  unfold push at hpush
  split at hpush
  · cases hpush
  · cases hpush
    rfl

/-- Leaving a call undoes entering it. -/
theorem pop_of_push {stack pushed : CallStack} {frame : Frame}
    (hpush : stack.push frame = .ok pushed) : pushed.pop = stack := by
  unfold push at hpush
  split at hpush
  · cases hpush
  · cases hpush
    rfl

/-- A call is refused exactly when as many are active as allowed. -/
theorem push_eq_error_iff {stack : CallStack} {frame : Frame} {cause : Cause} :
    stack.push frame = .error cause ↔
      stack.depth = stack.maxDepth ∧ cause = .depthExceeded stack.maxDepth := by
  have hle := stack.depth_le
  unfold push
  split
  · next hfull =>
    have heq : stack.depth = stack.maxDepth := Nat.le_antisymm hle hfull
    simp [heq, eq_comm]
  · next hroom =>
    have hne : stack.depth ≠ stack.maxDepth := by omega
    simp [hne]

end CallStack

/-- The state after the innermost call was left. -/
def State.leaveCall (state : State) : State := { state with calls := state.calls.pop }

/-- How a call ends when the body of the function ends. -/
def Result.leaveCall : Result Signal → Result Value
  | .value (.returned given) after => .value given after.leaveCall
  | .value (.value _) after => .value .nothing after.leaveCall
  | .value (.exit exit) after => .interrupted (.loopExit exit) after.leaveCall
  | .interrupted interrupt after => .interrupted interrupt after.leaveCall
  | .halted reason => .halted reason

/-- A call ends without an outcome exactly when the body does. -/
@[simp] theorem Result.leaveCall_eq_halted_iff {result : Result Signal} {reason : Halt} :
    result.leaveCall = .halted reason ↔ result = .halted reason := by
  cases result with
  | value signal after => cases signal <;> simp [leaveCall]
  | interrupted interrupt after => simp [leaveCall]
  | halted other => simp [leaveCall]

/-- Giving arguments to parameters always succeeds. -/
theorem bindParameters_eq_value (scope : Scope) (parameters : List String)
    (arguments : List Value) (state : State) :
    ∃ after, bindParameters scope parameters arguments state = .value () after ∧
      after.calls = state.calls := by
  induction parameters generalizing arguments state with
  | nil => exact ⟨state, rfl, rfl⟩
  | cons parameter parameters ih =>
    cases arguments with
    | nil => exact ih [] { state with store := scope.bind state.store parameter .nothing }
    | cons argument arguments =>
      exact ih arguments { state with store := scope.bind state.store parameter argument }

/-- Making the scope of a call always succeeds, and no call is entered or left by it. -/
theorem callScope_eq_value (closure : Closure) (arguments : List Value) (state : State) :
    ∃ scope start, callScope closure arguments state = .value scope start ∧
      start.calls = state.calls := by
  have hnew : Eval.newScope closure.scope state = .value (closure.scope.child state.store).1
    { state with store := (closure.scope.child state.store).2 } := rfl
  obtain ⟨after, hafter, hcalls⟩ := bindParameters_eq_value (closure.scope.child state.store).1
    closure.parameters arguments { state with store := (closure.scope.child state.store).2 }
  unfold callScope
  rw [Eval.bind_of_value hnew, Eval.bind_of_value hafter]
  cases closure.receiver? with
  | none => exact ⟨_, _, rfl, hcalls⟩
  | some object => exact ⟨_, _, rfl, hcalls⟩

/-- A call from a state: the frame is entered, the body is left to the evaluator, and the frame is
left. At the limit the evaluator plays no part. -/
theorem callFunction_apply {ref : Ref .function} {arguments : List Value} {state start : State}
    {scope : Scope} (evaluator : Evaluator) (module : String) (line : Nat)
    (hscope : callScope (state.store.get ref) arguments state = .value scope start) :
    callFunction evaluator ref arguments module line state =
      match start.calls.push ⟨(state.store.get ref).displayName, module, line⟩ with
      | .error cause => .interrupted (.error (.ofCause cause)) start
      | .ok calls =>
        (evaluator.block scope (state.store.get ref).body.statements
          { start with calls }).leaveCall := by
  have hclosure : Eval.view (fun store => store.get ref) state =
    .value (state.store.get ref) state := rfl
  unfold callFunction
  rw [Eval.bind_of_value hclosure, Eval.bind_of_value hscope, Eval.bind_apply]
  unfold Eval.withFrame
  cases start.calls.push ⟨(state.store.get ref).displayName, module, line⟩ with
  | error cause => rfl
  | ok calls =>
    dsimp only
    cases evaluator.block scope (state.store.get ref).body.statements { start with calls } with
    | value signal after => cases signal <;> rfl
    | interrupted interrupt after => rfl
    | halted reason => rfl

/-- The visit of a function's body, once the call's frame was entered. -/
def Visit.body (closure : Closure) (scope : Scope) (start : State) (calls : CallStack) : Visit :=
  ⟨.block scope closure.body.statements, { start with calls }⟩

/-- A call asks for nothing but the body of the function, after it entered the call's frame. -/
theorem asks_callFunction_iff {ref : Ref .function} {arguments : List Value} {module : String}
    {line : Nat} {evaluator : Evaluator} {state start : State} {scope : Scope} {visit : Visit}
    (hscope : callScope (state.store.get ref) arguments state = .value scope start) :
    Asks (fun e => callFunction e ref arguments module line) evaluator state visit ↔
      ∃ calls, start.calls.push ⟨(state.store.get ref).displayName, module, line⟩ = .ok calls ∧
        visit = .body (state.store.get ref) scope start calls := by
  have hperform : ∀ calls, (∀ reason, ((evaluator.haltedAt visit reason).block scope
      (state.store.get ref).body.statements { start with calls }).leaveCall = .halted reason) ↔
      visit = .body (state.store.get ref) scope start calls := by
    intro calls
    simp only [Result.leaveCall_eq_halted_iff]
    exact @asks_perform_iff (.block scope (state.store.get ref).body.statements) evaluator
      { start with calls } visit
  unfold Asks
  simp only [callFunction_apply _ module line hscope]
  cases start.calls.push ⟨(state.store.get ref).displayName, module, line⟩ with
  | error cause =>
    constructor
    · intro hhalted
      cases hhalted .outOfSteps
    · rintro ⟨calls, hpush, _⟩
      cases hpush
  | ok calls => simpa using hperform calls

/-- A call asks for blocks only. -/
theorem exists_block_of_asks_callFunction {ref : Ref .function} {arguments : List Value}
    {module : String} {line : Nat} {evaluator : Evaluator} {state : State} {visit : Visit}
    (hasks : Asks (fun e => callFunction e ref arguments module line) evaluator state visit) :
    ∃ inner parts start, visit = ⟨.block inner parts, start⟩ := by
  obtain ⟨scope, start, hscope, _⟩ := callScope_eq_value (state.store.get ref) arguments state
  obtain ⟨calls, _, hvisit⟩ := (asks_callFunction_iff hscope).mp hasks
  exact ⟨_, _, _, hvisit⟩

/-- A call asks for a visit or ignores it. -/
theorem asks_or_ignores_callFunction (ref : Ref .function) (arguments : List Value)
    (module : String) (line : Nat) (evaluator : Evaluator) (state : State) (visit : Visit) :
    Asks (fun e => callFunction e ref arguments module line) evaluator state visit ∨
      Ignores (fun e => callFunction e ref arguments module line) evaluator state visit := by
  obtain ⟨scope, start, hscope, _⟩ := callScope_eq_value (state.store.get ref) arguments state
  rw [asks_callFunction_iff hscope]
  unfold Ignores
  simp only [callFunction_apply _ module line hscope]
  cases start.calls.push ⟨(state.store.get ref).displayName, module, line⟩ with
  | error cause => exact .inr fun _ => rfl
  | ok calls =>
    rcases asks_or_ignores_perform (.block scope (state.store.get ref).body.statements)
      evaluator { start with calls } visit with hasks | hignores
    · exact .inl ⟨calls, rfl, asks_perform_iff.mp hasks⟩
    · exact .inr fun reason => congrArg Result.leaveCall (hignores reason)

end Kestrel
