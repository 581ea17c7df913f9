import Kestrel.Fault.Located
import Kestrel.Module.Loader
import Kestrel.Scope

/-!
# Computations of a running program

A computation changes the state of the program and ends with a value or an interrupt. An interrupt
is an error, or a loop exit that left a function and is on its way to the loop around the call. A
computation may also be halted from outside, and then has no outcome at all.
-/

namespace Kestrel

/-- What the program printed, and how many bytes more it may print. -/
structure Output where
  text : String
  /-- Without a bound, everything can be printed. -/
  room? : Option Nat
  deriving DecidableEq, Repr, Inhabited

namespace Output

/-- Nothing printed, no bound. -/
def empty : Output := ⟨"", none⟩

/-- Whether there is room for a text. -/
def fits (output : Output) (text : String) : Bool :=
  match output.room? with
  | none => true
  | some room => text.utf8ByteSize ≤ room

/-- Prints a text. -/
def write (output : Output) (text : String) : Output :=
  ⟨output.text ++ text, output.room?.map (· - text.utf8ByteSize)⟩

end Output

/-- All that a running program can change. -/
structure State where
  store : Store
  calls : CallStack
  output : Output
  deriving Inhabited

/-- What cuts a computation short. -/
inductive Interrupt where
  | error (error : RuntimeError)
  | loopExit (exit : LoopExit)
  deriving Repr

/-- An interrupt as the error that it is on its way. A loop exit is one that found no loop. -/
def Interrupt.asError : Interrupt → RuntimeError
  | .error raised => raised
  | .loopExit exit => .ofCause (.loopExitOutside exit)

/-- Why a computation has no outcome. -/
inductive Halt where
  /-- It was given too few steps. -/
  | outOfSteps
  /-- It needs a file that nobody has looked at yet. -/
  | awaitingFile (path : String)
  deriving DecidableEq, Repr

/-- The end of a computation. -/
inductive Result (α : Type) where
  | value (value : α) (state : State)
  | interrupted (interrupt : Interrupt) (state : State)
  | halted (reason : Halt)

/-- A computation. -/
def Eval (α : Type) : Type := State → Result α

namespace Eval

variable {α β : Type}

/-- The computation that does nothing. -/
@[always_inline, inline] protected def pure (value : α) : Eval α := fun state =>
  .value value state

/-- One computation and then, if it gave a value, another one. -/
@[always_inline, inline] protected def bind (first : Eval α) (next : α → Eval β) : Eval β :=
  fun state =>
    match first state with
    | .value value state => next value state
    | .interrupted interrupt state => .interrupted interrupt state
    | .halted reason => .halted reason

instance : Monad Eval where
  pure := Eval.pure
  bind := Eval.bind

instance : Inhabited (Eval α) := ⟨fun _ => .halted .outOfSteps⟩

/-- Stops without an outcome. -/
def halt (reason : Halt) : Eval α := fun _ => .halted reason

/-- Fails for a reason. -/
def fail (cause : Cause) : Eval α := fun state =>
  .interrupted (.error (.ofCause cause)) state

/-- Leaves for the loop around the call. -/
def exitLoop (exit : LoopExit) : Eval α := fun state => .interrupted (.loopExit exit) state

/-- A value, or the failure for a reason. -/
@[inline] def lift (outcome : Except Cause α) : Eval α :=
  match outcome with
  | .ok value => Eval.pure value
  | .error cause => fail cause

/-- What the store says. -/
@[inline] def view (f : Store → α) : Eval α := fun state => .value (f state.store) state

/-- What the store says, or the failure for a reason. -/
@[inline] def viewOrFail (f : Store → Except Cause α) : Eval α := fun state =>
  match f state.store with
  | .ok value => .value value state
  | .error cause => .interrupted (.error (.ofCause cause)) state

/-- Changes the store. -/
@[inline] def change (f : Store → Store) : Eval Unit := fun state =>
  .value () { state with store := f state.store }

/-- Adds a cell to the store. -/
@[inline] def newCell (kind : CellKind) (content : kind.Content) : Eval (Ref kind) := fun state =>
  .value (state.store.next kind) { state with store := state.store.add kind content }

/-- Changes what a cell holds. -/
@[inline] def modifyCell {kind : CellKind} (ref : Ref kind)
    (f : kind.Content → kind.Content) : Eval Unit :=
  change fun store => store.modify ref f

/-- A new array. -/
def newArray (items : List Value) : Eval Value := do
  return .array (← newCell .array items.toArray)

/-- Makes something out of new cells. -/
@[inline] def allocate (f : Store → α × Store) : Eval α := fun state =>
  match f state.store with
  | (made, store) => .value made { state with store }

/-- A new scope inside another one. -/
def newScope (scope : Scope) : Eval Scope := allocate scope.child

/-- Binds a name in the innermost scope, whether it is bound there or not. -/
def bindName (scope : Scope) (name : String) (value : Value) : Eval Unit :=
  change fun store => scope.bind store name value

/-- Binds a new name in the innermost scope. -/
def declareName (scope : Scope) (name : String) (value : Value) : Eval Unit := do
  viewOrFail fun store => scope.declarable store name
  bindName scope name value

/-- Gives a new value to a name in the nearest scope that binds it. -/
def assignName (scope : Scope) (name : String) (value : Value) : Eval Unit := do
  let ref ← viewOrFail fun store => scope.assignable store name
  change fun store => Scope.rebind store ref name value

/-- Prints a text, or fails if there is no room for all of it. -/
def print (text : String) (failure : Cause) : Eval Unit := fun state =>
  if state.output.fits text then
    .value () { state with output := state.output.write text }
  else .interrupted (.error (.ofCause failure)) state

/-- The computation inside one more active call, which is over when the computation ends. -/
@[inline] def withFrame (frame : Frame) (body : Eval α) : Eval α := fun state =>
  match state.calls.push frame with
  | .error cause => .interrupted (.error (.ofCause cause)) state
  | .ok calls =>
    match body { state with calls } with
    | .value value state => .value value { state with calls := state.calls.pop }
    | .interrupted interrupt state =>
      .interrupted interrupt { state with calls := state.calls.pop }
    | .halted reason => .halted reason

end Eval

end Kestrel
