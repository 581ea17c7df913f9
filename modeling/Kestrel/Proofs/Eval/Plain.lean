import Kestrel.Eval.Statement

/-!
# Plain computations

Most of what a construct does on its own is plain: it reads and changes cells, prints, or fails.
A plain computation makes no calls, so it leaves the call stack as it is and does not depend on it,
and when it fails its error is a new one, whose origin nobody has noted yet. This file proves that
every native function and every primitive step of an expression, of an assignment, of a declaration
or of an import is plain.
-/

namespace Kestrel

/-- The state that a result leaves, if there is one. -/
def Result.after? {α : Type} : Result α → Option State
  | .value _ after => some after
  | .interrupted _ after => some after
  | .halted _ => none

/-- A result with what follows if it is a value. -/
@[simp] def Result.andThen {α β : Type} (result : Result α) (next : α → Eval β) : Result β :=
  match result with
  | .value given after => next given after
  | .interrupted interrupt after => .interrupted interrupt after
  | .halted reason => .halted reason

namespace Eval

variable {α β : Type}

/-- Binding runs the second computation from the state in which the first one gave its value. -/
theorem bind_apply (first : Eval α) (next : α → Eval β) (state : State) :
    (first >>= next) state = (first state).andThen next := rfl

/-- After a computation that gave a value, the next one runs on it. -/
theorem bind_of_value {first : Eval α} {state after : State} {value : α}
    (hvalue : first state = .value value after) (next : α → Eval β) :
    (first >>= next) state = next value after := by
  rw [bind_apply, hvalue, Result.andThen]

/-- After a computation that was interrupted, the next one does not begin. -/
theorem bind_of_interrupted {first : Eval α} {state after : State} {interrupt : Interrupt}
    (hinterrupted : first state = .interrupted interrupt after) (next : α → Eval β) :
    (first >>= next) state = .interrupted interrupt after := by
  rw [bind_apply, hinterrupted, Result.andThen]

/-- A look at the store that finds something. -/
theorem viewOrFail_of_ok {f : Store → Except Cause α} {state : State} {value : α}
    (hview : f state.store = .ok value) : viewOrFail f state = .value value state := by
  unfold viewOrFail
  rw [hview]

/-- A look at the store that fails. -/
theorem viewOrFail_of_error {f : Store → Except Cause α} {state : State} {cause : Cause}
    (hview : f state.store = .error cause) :
    viewOrFail f state = .interrupted (.error (.ofCause cause)) state := by
  unfold viewOrFail
  rw [hview]

/-- Doing nothing gives what was given before, and changes nothing. -/
theorem pure_eq_value {given value : α} {state after : State}
    (hvalue : (pure given : Eval α) state = .value value after) :
    value = given ∧ after = state := by
  cases hvalue
  exact ⟨rfl, rfl⟩

/-- Two computations in a row give a value only if the first one gives one, too. -/
theorem bind_eq_value {first : Eval α} {next : α → Eval β} {state after : State} {value : β}
    (hvalue : (first >>= next) state = .value value after) :
    ∃ given middle, first state = .value given middle ∧ next given middle = .value value after := by
  rw [bind_apply] at hvalue
  cases hfirst : first state with
  | value given middle =>
    rw [hfirst] at hvalue
    exact ⟨given, middle, rfl, hvalue⟩
  | interrupted interrupt middle =>
    rw [hfirst] at hvalue
    cases hvalue
  | halted reason =>
    rw [hfirst] at hvalue
    cases hvalue

/-- Looking at the store gives what the store says, and changes nothing. -/
theorem viewOrFail_eq_value {f : Store → Except Cause α} {state after : State} {value : α}
    (hvalue : viewOrFail f state = .value value after) :
    f state.store = .ok value ∧ after = state := by
  unfold viewOrFail at hvalue
  cases hview : f state.store with
  | ok given =>
    rw [hview] at hvalue
    cases hvalue
    exact ⟨rfl, rfl⟩
  | error cause =>
    rw [hview] at hvalue
    cases hvalue

instance : LawfulMonad Eval :=
  LawfulMonad.mk' Eval
    (by
      intro α computation
      funext state
      change (computation >>= pure) state = computation state
      rw [bind_apply]
      cases computation state <;> rfl)
    (by
      intro α β value next
      rfl)
    (by
      intro α β γ first second third
      funext state
      simp only [bind_apply]
      cases first state <;> rfl)

end Eval

/-- A result of a plain computation from some state: the call stack is as it was, and an error is
new. -/
def Result.Plain {α : Type} (before : State) : Result α → Prop
  | .value _ after => after.calls = before.calls
  | .interrupted interrupt after =>
    after.calls = before.calls ∧ ∃ cause, interrupt = .error (.ofCause cause)
  | .halted _ => True

/-- Only the call stack of the state before matters. -/
theorem Result.Plain.of_calls_eq {α : Type} {before middle : State} {result : Result α}
    (hresult : result.Plain middle) (hcalls : middle.calls = before.calls) :
    result.Plain before := by
  cases result with
  | value value after => exact Eq.trans hresult hcalls
  | interrupted interrupt after => exact ⟨hresult.1.trans hcalls, hresult.2⟩
  | halted reason => trivial

/-- The same end with another call stack. -/
def Result.withCalls {α : Type} (calls : CallStack) : Result α → Result α
  | .value given after => .value given { after with calls }
  | .interrupted interrupt after => .interrupted interrupt { after with calls }
  | .halted reason => .halted reason

/-- A computation that makes no calls, fails only with errors of its own, and does the same whatever
calls are active. -/
structure Eval.Plain {α : Type} (computation : Eval α) : Prop where
  ends (state : State) : (computation state).Plain state
  withCalls (state : State) (calls : CallStack) :
    computation { state with calls } = (computation state).withCalls calls

namespace Eval.Plain

variable {α β : Type}

/-- One plain computation after another is plain. -/
@[simp] theorem bind {first : Eval α} {next : α → Eval β} (hfirst : first.Plain)
    (hnext : ∀ value, (next value).Plain) : (first >>= next).Plain where
  ends state := by
    rw [bind_apply]
    have hresult := hfirst.ends state
    cases h : first state with
    | value value middle =>
      rw [h] at hresult
      exact ((hnext value).ends middle).of_calls_eq hresult
    | interrupted interrupt middle =>
      rw [h] at hresult
      exact hresult
    | halted reason => trivial
  withCalls state calls := by
    rw [bind_apply, bind_apply, hfirst.withCalls]
    cases first state with
    | value value middle => exact (hnext value).withCalls middle calls
    | interrupted interrupt middle => rfl
    | halted reason => rfl

/-- Doing nothing is plain. -/
@[simp] theorem pure (value : α) : (pure value : Eval α).Plain := ⟨fun _ => rfl, fun _ _ => rfl⟩

/-- Turning the value of a plain computation into another one is plain. -/
@[simp] theorem map {computation : Eval α} (f : α → β) (hplain : computation.Plain) :
    (f <$> computation).Plain := by
  rw [map_eq_pure_bind]
  exact bind hplain fun value => pure (f value)

/-- Stopping without an outcome is plain. -/
@[simp] theorem halt (reason : Halt) : (Eval.halt reason : Eval α).Plain :=
  ⟨fun _ => trivial, fun _ _ => rfl⟩

/-- Failing for a reason is plain. -/
@[simp] theorem fail (cause : Cause) : (Eval.fail cause : Eval α).Plain :=
  ⟨fun _ => ⟨rfl, cause, rfl⟩, fun _ _ => rfl⟩

/-- A value or a failure is plain. -/
@[simp] theorem lift (outcome : Except Cause α) : (Eval.lift outcome).Plain := by
  cases outcome with
  | ok value => exact pure value
  | error cause => exact fail cause

/-- Looking at the store is plain. -/
@[simp] theorem view (f : Store → α) : (Eval.view f).Plain :=
  ⟨fun _ => rfl, fun _ _ => rfl⟩

/-- Looking at the store is plain, also when it can fail. -/
@[simp] theorem viewOrFail (f : Store → Except Cause α) : (Eval.viewOrFail f).Plain where
  ends state := by
    unfold Eval.viewOrFail
    cases f state.store with
    | ok value => exact rfl
    | error cause => exact ⟨rfl, cause, rfl⟩
  withCalls state calls := by
    unfold Eval.viewOrFail
    dsimp only
    cases f state.store <;> rfl

/-- Changing the store is plain. -/
@[simp] theorem change (f : Store → Store) : (Eval.change f).Plain :=
  ⟨fun _ => rfl, fun _ _ => rfl⟩

/-- Adding a cell is plain. -/
@[simp] theorem newCell (kind : CellKind) (content : kind.Content) :
    (Eval.newCell kind content).Plain :=
  ⟨fun _ => rfl, fun _ _ => rfl⟩

/-- Changing a cell is plain. -/
@[simp] theorem modifyCell {kind : CellKind} (ref : Ref kind) (f : kind.Content → kind.Content) :
    (Eval.modifyCell ref f).Plain :=
  change _

/-- Making something out of new cells is plain. -/
@[simp] theorem allocate (f : Store → α × Store) : (Eval.allocate f).Plain :=
  ⟨fun _ => rfl, fun _ _ => rfl⟩

/-- Printing is plain. -/
@[simp] theorem print (text : String) (failure : Cause) : (Eval.print text failure).Plain where
  ends state := by
    unfold Eval.print
    split
    · exact rfl
    · exact ⟨rfl, failure, rfl⟩
  withCalls state calls := by
    unfold Eval.print
    dsimp only
    split <;> rfl

/-- A new array is made by plain steps. -/
@[simp] theorem newArray (items : List Value) : (Eval.newArray items).Plain :=
  bind (newCell _ _) fun _ => pure _

/-- A new scope is made by a plain step. -/
@[simp] theorem newScope (scope : Scope) : (Eval.newScope scope).Plain := allocate _

/-- Binding a name is plain. -/
@[simp] theorem bindName (scope : Scope) (name : String) (value : Value) :
    (Eval.bindName scope name value).Plain :=
  change _

/-- Declaring a name is plain. -/
@[simp] theorem declareName (scope : Scope) (name : String) (value : Value) :
    (Eval.declareName scope name value).Plain :=
  bind (viewOrFail _) fun _ => bindName scope name value

/-- Assigning to a name is plain. -/
@[simp] theorem assignName (scope : Scope) (name : String) (value : Value) :
    (Eval.assignName scope name value).Plain :=
  bind (viewOrFail _) fun _ => change _

/-- Every method of a text is plain. -/
theorem callTextMethod (receiver : TextValue) (method : TextMethod) (args : Arguments) :
    (Kestrel.callTextMethod receiver method args).Plain := by
  unfold Kestrel.callTextMethod
  cases method <;> cases receiver <;> simp

/-- Every method of an array is plain. -/
theorem callArrayMethod (receiver : Ref .array) (method : ArrayMethod) (args : Arguments) :
    (Kestrel.callArrayMethod receiver method args).Plain := by
  unfold Kestrel.callArrayMethod
  cases method <;> simp

/-- Every method of a dictionary is plain. -/
theorem callDictionaryMethod (receiver : Ref .dictionary) (method : DictionaryMethod)
    (args : Arguments) : (Kestrel.callDictionaryMethod receiver method args).Plain := by
  unfold Kestrel.callDictionaryMethod
  cases method <;> simp

/-- Printing several texts is plain. -/
theorem printPieces (callee : String) (pieces : List String) :
    (Kestrel.printPieces callee pieces).Plain := by
  unfold Kestrel.printPieces
  refine bind ?_ fun _ => pure _
  induction pieces with
  | nil => exact pure _
  | cons piece pieces ih =>
    rw [List.forIn_cons]
    refine bind (bind (print piece _) fun _ => pure _) fun step => ?_
    cases step with
    | done _ => exact pure _
    | yield _ => exact ih

/-- Every built-in function is plain. -/
theorem callBuiltin (function : Builtin) (args : Arguments) :
    (Kestrel.callBuiltin function args).Plain := by
  unfold Kestrel.callBuiltin
  cases function <;> simp [printPieces]

/-- A call of a native function is plain, also when the error value that it gives is raised. -/
@[simp] theorem callNative (ref : Ref .native) (values : List Value) :
    (Kestrel.callNative ref values).Plain := by
  unfold Kestrel.callNative
  refine bind (view _) fun native => bind ?_ fun value => ?_
  · unfold Kestrel.runNative
    cases native <;>
      simp [callTextMethod, callArrayMethod, callDictionaryMethod, callBuiltin]
  · cases value <;> simp

/-- Turning a property into a value is plain. -/
theorem toValue (property : Property) : property.toValue.Plain := by
  unfold Property.toValue
  cases property <;> simp

/-- Reading a property is plain. -/
@[simp] theorem getProperty (value : Value) (name : String) :
    (Kestrel.getProperty value name).Plain :=
  bind (viewOrFail _) fun property => toValue property

/-- Applying an operator to two values is plain. -/
@[simp] theorem applyBinary (operator : BinaryOperator) (left right : Value) :
    (Kestrel.applyBinary operator left right).Plain := by
  unfold Kestrel.applyBinary
  split <;> simp

/-- Working out the value that an assignment writes is plain if reading the current one is. -/
@[simp] theorem assignedValue (operator : AssignOperator) {current : Eval Value} (value : Value)
    (hcurrent : current.Plain) : (Kestrel.assignedValue operator current value).Plain := by
  unfold Kestrel.assignedValue
  split <;> simp [hcurrent]

/-- Writing to an index is plain. -/
@[simp] theorem assignIndex (object index value : Value) :
    (Kestrel.assignIndex object index value).Plain := by
  unfold Kestrel.assignIndex
  split <;> simp

/-- Writing to a property is plain. -/
@[simp] theorem assignMember (object : Value) (name : String) (value : Value) :
    (Kestrel.assignMember object name value).Plain := by
  unfold Kestrel.assignMember
  split
  · refine bind (view _) fun template => ?_
    split <;> simp
  · simp
  · simp

/-- Making the scope of a round of a loop is plain. -/
theorem iterationScope (scope : Scope) (index : Option Identifier) (item : Identifier)
    (entry : Value × Value) : (Kestrel.iterationScope scope index item entry).Plain := by
  unfold Kestrel.iterationScope
  refine bind (newScope scope) fun inner => ?_
  cases index <;> simp

/-- Declaring a struct is plain. -/
@[simp] theorem executeStruct (scope : Scope) (declaration : StructDeclaration) :
    (Kestrel.executeStruct scope declaration).Plain := by
  unfold Kestrel.executeStruct
  dsimp only
  split <;> simp

/-- Declaring a method is plain. -/
@[simp] theorem executeMethod (scope : Scope) (structName : Identifier)
    (function : FunctionDeclaration) :
    (Kestrel.executeMethod scope structName function).Plain := by
  unfold Kestrel.executeMethod
  refine bind (viewOrFail _) fun owner => ?_
  split
  · refine bind (view _) fun template => ?_
    split <;> simp
  · exact fail _

/-- Making the values of a library's members is plain. -/
theorem libraryMembers (members : OrderedMap Value) (list : List (String × LibraryMember)) :
    (Kestrel.libraryMembers members list).Plain := by
  induction list generalizing members with
  | nil => exact pure _
  | cons entry others ih =>
    obtain ⟨name, member⟩ := entry
    refine bind ?_ fun value => ih _
    cases member <;> simp [libraryValue]

/-- Importing a native library is plain. -/
theorem importLibrary (scope : Scope) (library : Library) (name : String) :
    (Kestrel.importLibrary scope library name).Plain := by
  unfold Kestrel.importLibrary
  refine bind (lift _) fun content => ?_
  cases content with
  | single member => cases member <;> simp [libraryValue]
  | members list => exact bind (libraryMembers _ _) fun _ => bind (newCell _ _) fun _ => change _

/-- Finding a module is plain. -/
theorem loadModule (loader : Loader) (path importer : String) :
    (Kestrel.loadModule loader path importer).Plain := by
  unfold Kestrel.loadModule
  split <;> simp

/-- Noting an import is plain. -/
theorem recordImport (scope : Scope) (target : String) :
    (Kestrel.recordImport scope target).Plain :=
  bind (viewOrFail _) fun _ => modifyCell _ _

/-- Reading off the value of a program is plain. -/
theorem programValue (signal : Signal) : (Kestrel.programValue signal).Plain := by
  cases signal <;> simp [Kestrel.programValue]

end Eval.Plain

end Kestrel
