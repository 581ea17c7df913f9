import Kestrel.Proofs.Eval.Plain
import Kestrel.Session

/-!
# Failing calls of native functions

A native function looks at its arguments and its receiver before it changes anything, so a call that
fails there leaves every cell as it was. One kind of call fails only afterwards: an error value that
a collection holds is raised when a method takes it out, and then the collection lacks it. The main
theorem says that this is the only exception.
-/

namespace Kestrel

/-- The state in which a native function ends that fails, by itself or by giving an error value. -/
def Result.failure? : Result Value → Option State
  | .value (.error _ _) after => some after
  | .interrupted _ after => some after
  | _ => none

/-- A computation that changes no cell. -/
def Eval.KeepsStore {α : Type} (computation : Eval α) : Prop :=
  ∀ state after, (computation state).after? = some after → after.store = state.store

namespace Eval.KeepsStore

variable {α β : Type}

/-- Doing nothing changes no cell. -/
theorem pure (value : α) : (pure value : Eval α).KeepsStore := by
  intro state after hafter
  cases hafter
  rfl

/-- Looking at the store changes no cell. -/
theorem viewOrFail (f : Store → Except Cause α) : (Eval.viewOrFail f).KeepsStore := by
  intro state after hafter
  cases hview : f state.store with
  | ok value =>
    rw [viewOrFail_of_ok hview] at hafter
    cases hafter
    rfl
  | error cause =>
    rw [viewOrFail_of_error hview] at hafter
    cases hafter
    rfl

/-- A value or a failure changes no cell. -/
theorem lift (outcome : Except Cause α) : (Eval.lift outcome).KeepsStore := by
  cases outcome with
  | ok value => exact pure value
  | error cause => exact viewOrFail fun _ => .error cause

/-- Looking at the store changes no cell. -/
theorem view (f : Store → α) : (Eval.view f).KeepsStore := viewOrFail fun store => .ok (f store)

/-- Printing changes no cell. -/
theorem print (text : String) (failure : Cause) : (Eval.print text failure).KeepsStore := by
  intro state after hafter
  unfold Eval.print at hafter
  split at hafter
  · cases hafter
    rfl
  · cases hafter
    rfl

/-- Two computations in a row change no cell if neither does. -/
theorem bind {first : Eval α} {next : α → Eval β} (hfirst : first.KeepsStore)
    (hnext : ∀ value, (next value).KeepsStore) : (first >>= next).KeepsStore := by
  intro state after hafter
  rw [bind_apply] at hafter
  cases hend : first state with
  | value value middle =>
    rw [hend] at hafter
    have hmiddle : middle.store = state.store := hfirst state middle (by rw [hend]; rfl)
    exact (hnext value middle after hafter).trans hmiddle
  | interrupted interrupt middle =>
    rw [hend] at hafter
    exact hfirst state after (by rw [hend]; exact hafter)
  | halted reason =>
    rw [hend] at hafter
    cases hafter

/-- Printing several texts changes no cell. -/
theorem printPieces (callee : String) (pieces : List String) :
    (Kestrel.printPieces callee pieces).KeepsStore := by
  unfold Kestrel.printPieces
  refine bind ?_ fun _ => pure _
  induction pieces with
  | nil => exact pure _
  | cons piece pieces ih =>
    rw [List.forIn_cons]
    refine bind (bind (print piece _) fun _ => pure _) fun step => ?_
    cases step with
    | done _ => exact pure _
    | yield _ => exact ih

end Eval.KeepsStore

/-- A native function that changes no cell if it fails. -/
def Eval.Harmless (computation : Eval Value) : Prop :=
  ∀ state after, (computation state).failure? = some after → after.store = state.store

/-- Failing is a way of ending. -/
theorem Result.after?_of_failure? {result : Result Value} {after : State}
    (hfailure : result.failure? = some after) : result.after? = some after := by
  unfold failure? at hfailure
  split at hfailure
  · exact hfailure
  · exact hfailure
  · cases hfailure

namespace Eval

variable {α : Type}

/-- What changes no cell changes none if it fails. -/
theorem KeepsStore.harmless {computation : Eval Value} (hkeeps : computation.KeepsStore) :
    computation.Harmless :=
  fun state after hfailure => hkeeps state after (Result.after?_of_failure? hfailure)

namespace Harmless

/-- What follows a computation that changes no cell. -/
theorem after {first : Eval α} {next : α → Eval Value} (hfirst : first.KeepsStore)
    (hnext : ∀ value, (next value).Harmless) : (first >>= next).Harmless := by
  intro state after hfailure
  rw [bind_apply] at hfailure
  cases hend : first state with
  | value value middle =>
    rw [hend] at hfailure
    have hmiddle : middle.store = state.store := hfirst state middle (by rw [hend]; rfl)
    exact (hnext value middle after hfailure).trans hmiddle
  | interrupted interrupt middle =>
    rw [hend] at hfailure
    cases hfailure
    exact hfirst state after (by rw [hend]; rfl)
  | halted reason =>
    rw [hend] at hfailure
    cases hfailure

/-- A change of a cell that ends with a value which is no error does not fail. -/
theorem modifyCell {kind : CellKind} (ref : Ref kind) (f : kind.Content → kind.Content)
    {value : Value} (hvalue : ∀ kind message, value ≠ .error kind message) :
    (do Eval.modifyCell ref f; return value : Eval Value).Harmless := by
  intro state after hfailure
  cases value with
  | error kind message => exact absurd rfl (hvalue kind message)
  | _ => cases hfailure

/-- Making a new array does not fail. -/
theorem newArray (items : List Value) : (Eval.newArray items).Harmless := by
  rintro state after ⟨⟩

end Harmless

end Eval

/-- The methods that take something out of a collection and give it. -/
def Native.takes : Native → Bool
  | .ofArray _ .pop => true
  | .ofArray _ .remove => true
  | .ofDictionary _ .remove => true
  | _ => false

namespace Eval.Harmless

/-- Every method of a text. -/
theorem callTextMethod (receiver : TextValue) (method : TextMethod) (args : Arguments) :
    (Kestrel.callTextMethod receiver method args).Harmless := by
  unfold Kestrel.callTextMethod
  cases method with
  | split => exact after (.viewOrFail _) fun _ => newArray _
  | mutable =>
    refine after (.view _) fun content => ?_
    rintro state final ⟨⟩
  | append =>
    refine after (.viewOrFail _) fun suffix => ?_
    cases receiver with
    | fixed text => exact (KeepsStore.pure _).harmless
    | buffer ref => exact modifyCell ref _ (by simp)
  | _ => exact (KeepsStore.viewOrFail _).harmless

/-- Every method of an array that takes nothing out of it. -/
theorem callArrayMethod {receiver : Ref .array} {method : ArrayMethod}
    (htakes : (Native.ofArray receiver method).takes = false) (args : Arguments) :
    (Kestrel.callArrayMethod receiver method args).Harmless := by
  unfold Kestrel.callArrayMethod
  cases method with
  | len => exact (KeepsStore.bind (.view _) fun _ => .pure _).harmless
  | add => exact modifyCell receiver _ (by simp)
  | insert => exact after (.viewOrFail _) fun found => modifyCell receiver _ (by simp)
  | remove => cases htakes
  | pop => cases htakes
  | has => exact (KeepsStore.viewOrFail _).harmless
  | find => exact (KeepsStore.viewOrFail _).harmless
  | slice => exact after (.viewOrFail _) fun _ => newArray _
  | join => exact (KeepsStore.viewOrFail _).harmless
  | reverse => exact modifyCell receiver _ (by simp)
  | copy => exact after (.view _) fun _ => newArray _

/-- Every method of a dictionary that takes nothing out of it. -/
theorem callDictionaryMethod {receiver : Ref .dictionary} {method : DictionaryMethod}
    (htakes : (Native.ofDictionary receiver method).takes = false) (args : Arguments) :
    (Kestrel.callDictionaryMethod receiver method args).Harmless := by
  unfold Kestrel.callDictionaryMethod
  cases method with
  | len => exact (KeepsStore.bind (.view _) fun _ => .pure _).harmless
  | add => exact after (.viewOrFail _) fun found => modifyCell receiver _ (by simp)
  | remove => cases htakes
  | has => exact (KeepsStore.viewOrFail _).harmless
  | keys => exact after (.view _) fun _ => newArray _
  | values => exact after (.view _) fun _ => newArray _
  | get => exact (KeepsStore.viewOrFail _).harmless

/-- Every built-in function. -/
theorem callBuiltin (function : Builtin) (args : Arguments) :
    (Kestrel.callBuiltin function args).Harmless := by
  unfold Kestrel.callBuiltin
  cases function with
  | print => exact (KeepsStore.bind (.view _) fun _ => .printPieces _ _).harmless
  | println => exact (KeepsStore.bind (.view _) fun _ => .printPieces _ _).harmless
  | range => exact after (.lift _) fun _ => newArray _
  | _ => exact (KeepsStore.viewOrFail _).harmless

/-- Every native function that takes nothing out of a collection. -/
theorem runNative {native : Native} (htakes : native.takes = false) (arguments : List Value) :
    (Kestrel.runNative native arguments).Harmless := by
  unfold Kestrel.runNative
  cases native with
  | builtin function => exact callBuiltin function _
  | ofNumber receiver method => exact (KeepsStore.pure _).harmless
  | ofText receiver method => exact callTextMethod receiver method _
  | ofArray receiver method => exact callArrayMethod htakes _
  | ofDictionary receiver method => exact callDictionaryMethod htakes _

end Eval.Harmless

/-- A method takes something out of a collection of a store: the last item of an array, its item at
an index, or the entry of a key. Nothing else is changed. -/
inductive Native.Takes (before : Store) (arguments : List Value) (taken : Value) :
    Native → Store → Prop
  | last {ref : Ref .array} (hlast : (before.get ref).back? = some taken) :
    Takes before arguments taken (.ofArray ref .pop)
      (before.modify ref fun (items : Array Value) => items.pop)
  | item {ref : Ref .array} {index : Float} {place : Nat}
    (hindex : arguments[0]? = some (.number index))
    (hplace : resolveIndex index (before.get ref).size = .ok place)
    (hitem : (before.get ref)[place]? = some taken) :
    Takes before arguments taken (.ofArray ref .remove)
      (before.modify ref fun (items : Array Value) => items.eraseIdxIfInBounds place)
  | entry {ref : Ref .dictionary} {key : Value} (hkey : arguments[0]? = some key)
    (hentry : (before.get ref).get? (key.display before) = some taken) :
    Takes before arguments taken (.ofDictionary ref .remove)
      (before.modify ref fun (entries : OrderedMap Value) => entries.erase (key.display before))

namespace Result

variable {α : Type} {state after : State}

/-- What begins with a look at the store fails there, or with what follows. -/
theorem failure?_afterView {f : Store → Except Cause α} {next : α → Eval Value}
    (hfailure : ((Eval.viewOrFail f >>= next) state).failure? = some after) :
    after.store = state.store ∨
      ∃ value, f state.store = .ok value ∧ (next value state).failure? = some after := by
  cases hview : f state.store with
  | ok value =>
    rw [Eval.bind_of_value (Eval.viewOrFail_of_ok hview)] at hfailure
    exact .inr ⟨value, rfl, hfailure⟩
  | error cause =>
    rw [Eval.bind_of_interrupted (Eval.viewOrFail_of_error hview)] at hfailure
    cases hfailure
    exact .inl rfl

/-- A value that is a failure is an error value. -/
theorem failure?_value {value : Value}
    (hfailure : (Result.value value state).failure? = some after) :
    ∃ kind message, value = .error kind message ∧ state = after := by
  cases value with
  | error kind message =>
    cases hfailure
    exact ⟨kind, message, rfl, rfl⟩
  | _ => cases hfailure

end Result

/-- A number that must be there is there. -/
theorem Arguments.number_eq_ok_iff {args : Arguments} {position : Nat} {x : Float} :
    args.number position = .ok x ↔ args.values[position]? = some (.number x) := by
  unfold number required
  cases args.values[position]? with
  | none => simp [bind, Except.bind]
  | some value => cases value <;> simp [bind, Except.bind, pure, Except.pure]

/-- The text of an argument that must be there. -/
theorem Arguments.display_eq_ok_iff {args : Arguments} {store : Store} {position : Nat}
    {text : String} : args.display store position = .ok text ↔
      ∃ value, args.values[position]? = some value ∧ value.display store = text := by
  unfold display required
  cases args.values[position]? <;> simp [Except.map]

namespace Native

variable {native : Native} {arguments : List Value} {state after : State}

/-- A method that takes something out of a collection gives it. -/
theorem Takes.runNative {taken : Value} {left : Store}
    (htakes : native.Takes state.store arguments taken left) :
    Kestrel.runNative native arguments state = .value taken { state with store := left } := by
  cases htakes with
  | last hlast =>
    refine Eval.bind_of_value (Eval.viewOrFail_of_ok ?_) _
    simp only [hlast]
  | @item ref index place hindex hplace hitem =>
    have hnumber : Arguments.number ⟨Native.name (.ofArray ref .remove), arguments⟩ 0 = .ok index :=
      Arguments.number_eq_ok_iff.mpr hindex
    refine Eval.bind_of_value (Eval.viewOrFail_of_ok (?_ : _ = Except.ok (place, taken))) _
    simp only [hnumber, hplace, hitem, bind, Except.bind, pure, Except.pure, Option.getD_some]
  | @entry ref key hkey hentry =>
    have hdisplay : Arguments.display ⟨Native.name (.ofDictionary ref .remove), arguments⟩
        state.store 0 = .ok (key.display state.store) :=
      Arguments.display_eq_ok_iff.mpr ⟨key, hkey, rfl⟩
    refine Eval.bind_of_value
      (Eval.viewOrFail_of_ok (?_ : _ = Except.ok (key.display state.store, taken))) _
    simp only [hdisplay, hentry, bind, Except.bind, pure, Except.pure]

/-- A method that takes something out of a collection fails before it changes anything, or because
it gives an error value that it took. -/
theorem exists_takes_of_failure (htakes : native.takes = true)
    (hfailure : (Kestrel.runNative native arguments state).failure? = some after) :
    after.store = state.store ∨
      ∃ kind message, native.Takes state.store arguments (.error kind message) after.store := by
  unfold Kestrel.runNative at hfailure
  cases native with
  | builtin function => cases htakes
  | ofNumber receiver method => cases htakes
  | ofText receiver method => cases htakes
  | ofArray ref method =>
    cases method with
    | pop =>
      rcases Result.failure?_afterView hfailure with hstore | ⟨taken, hview, hfailure⟩
      · exact .inl hstore
      · split at hview
        · next last hlast =>
          cases hview
          obtain ⟨kind, message, rfl, rfl⟩ := Result.failure?_value hfailure
          exact .inr ⟨kind, message, .last hlast⟩
        · cases hview
    | remove =>
      rcases Result.failure?_afterView hfailure with hstore | ⟨⟨place, taken⟩, hview, hfailure⟩
      · exact .inl hstore
      · simp only [bind, Except.bind] at hview
        split at hview
        · cases hview
        · next index hnumber =>
          split at hview
          · cases hview
          · next found hplace =>
            cases hview
            obtain ⟨kind, message, htaken, rfl⟩ := Result.failure?_value hfailure
            have hitem : (state.store.get ref)[place]? = some (.error kind message) := by
              cases hheld : (state.store.get ref)[place]? with
              | none =>
                rw [hheld] at htaken
                cases htaken
              | some held =>
                rw [hheld] at htaken
                exact congrArg some htaken
            exact .inr ⟨kind, message, .item (Arguments.number_eq_ok_iff.mp hnumber) hplace hitem⟩
    | _ => cases htakes
  | ofDictionary ref method =>
    cases method with
    | remove =>
      rcases Result.failure?_afterView hfailure with hstore | ⟨⟨key, taken⟩, hview, hfailure⟩
      · exact .inl hstore
      · simp only [bind, Except.bind] at hview
        split at hview
        · cases hview
        · next text hdisplay =>
          split at hview
          · next found hentry =>
            cases hview
            obtain ⟨kind, message, rfl, rfl⟩ := Result.failure?_value hfailure
            obtain ⟨value, hvalue, rfl⟩ := Arguments.display_eq_ok_iff.mp hdisplay
            exact .inr ⟨kind, message, .entry hvalue hentry⟩
          · cases hview
    | _ => cases htakes

end Native

/-- The result of a native function with an error value raised. -/
def Result.raised : Result Value → Result Value
  | .value (.error kind message) after =>
    .interrupted (.error (.ofCause (.raised kind message))) after
  | other => other

/-- A raised result that is interrupted comes from a failure. -/
theorem Result.failure?_of_raised {result : Result Value} {interrupt : Interrupt} {after : State}
    (hraised : result.raised = .interrupted interrupt after) : result.failure? = some after := by
  unfold raised at hraised
  split at hraised
  · cases hraised
    rfl
  · rw [hraised]
    rfl

/-- A call of a native function raises the error value that the function gives. -/
theorem callValue_native (evaluator : Evaluator) (ref : Ref .native) (arguments : List Value)
    (module : String) (line : Nat) (state : State) :
    callValue evaluator (.native ref) arguments module line state =
      (runNative (state.store.get ref) arguments state).raised := by
  have hnative : Eval.view (fun store => store.get ref) state =
    .value (state.store.get ref) state := rfl
  change callNative ref arguments state = _
  unfold callNative
  rw [Eval.bind_of_value hnative, Eval.bind_apply]
  cases runNative (state.store.get ref) arguments state with
  | value value after => cases value <;> rfl
  | interrupted interrupt after => rfl
  | halted reason => rfl

/-- A call of a native function that fails has left every cell as it was, unless an error value was
taken out of a collection: then the collection lacks this value, every other cell is as it was, and
the failure is the error that was taken. Taking out an error value always ends so. -/
theorem failing_native_changes_nothing_but_taken (evaluator : Evaluator) (ref : Ref .native)
    (arguments : List Value) (module : String) (line : Nat) (state : State) :
    (∀ interrupt after,
      callValue evaluator (.native ref) arguments module line state = .interrupted interrupt after →
        after.store = state.store ∨ ∃ kind message,
          (state.store.get ref).Takes state.store arguments (.error kind message) after.store ∧
            interrupt = .error (.ofCause (.raised kind message))) ∧
    ∀ kind message left,
      (state.store.get ref).Takes state.store arguments (.error kind message) left →
        callValue evaluator (.native ref) arguments module line state =
          .interrupted (.error (.ofCause (.raised kind message))) { state with store := left } := by
  have htaken {kind : ErrorKind} {message : String} {left : Store}
      (htakes : (state.store.get ref).Takes state.store arguments (.error kind message) left) :
      callValue evaluator (.native ref) arguments module line state =
        .interrupted (.error (.ofCause (.raised kind message))) { state with store := left } := by
    rw [callValue_native, htakes.runNative]
    rfl
  refine ⟨fun interrupt after hfails => ?_, fun kind message left htakes => htaken htakes⟩
  have hfailure : (runNative (state.store.get ref) arguments state).failure? = some after := by
    rw [callValue_native] at hfails
    exact Result.failure?_of_raised hfails
  cases hmethod : (state.store.get ref).takes with
  | false => exact .inl (Eval.Harmless.runNative hmethod arguments state after hfailure)
  | true =>
    rcases Native.exists_takes_of_failure hmethod hfailure with hstore | ⟨kind, message, htakes⟩
    · exact .inl hstore
    · rw [htaken htakes, Result.interrupted.injEq] at hfails
      exact .inr ⟨kind, message, htakes, hfails.1.symm⟩

/-- Removing a key that a dictionary does not have fails and leaves everything as it was. -/
theorem remove_of_missing_key_changes_nothing :
    let entries : OrderedMap Value := .ofList [("a", .bool true)]
    let store := (Store.empty.add .dictionary entries).add .native (.ofDictionary ⟨0⟩ .remove)
    let state : State := { (default : State) with store }
    let evaluator := Evaluator.ofSteps ⟨false, .fromMemory [], []⟩ 0
    ∃ interrupt after,
      callValue evaluator (.native ⟨0⟩) [.string "b"] "main" 1 state =
        .interrupted interrupt after ∧ after.store = state.store := by
  intro entries store state evaluator
  obtain ⟨interrupt, after, hfails⟩ : ∃ interrupt after,
      callValue evaluator (.native ⟨0⟩) [.string "b"] "main" 1 state =
        .interrupted interrupt after :=
    ⟨_, _, rfl⟩
  refine ⟨interrupt, after, hfails, ?_⟩
  rcases (failing_native_changes_nothing_but_taken evaluator ⟨0⟩ [.string "b"] "main" 1 state).1
    interrupt after hfails with hstore | ⟨kind, message, htakes, _⟩
  · exact hstore
  · have hnever : runNative (.ofDictionary ⟨0⟩ .remove) [.string "b"] state ≠
        .value (.error kind message) { state with store := after.store } := by
      intro hvalue
      cases hvalue
    exact absurd htakes.runNative hnever

/-- Whether a session comes to a native function that raises the one error in an array and leaves
the array empty. -/
def takesOutError : Run Session RunError Value → Bool
  | .ok (.ok (.native method), reached) =>
    match reached.lookup "a" with
    | .ok (.array array) =>
      match callValue reached.host.evaluator (.native method) [] "main.kes" 3 reached.state with
      | .interrupted _ after =>
        decide (reached.state.store.get array = #[.error .runtime "x"] ∧
          after.store.get array = #[])
      | _ => false
    | _ => false
  | _ => false

/-- An error that a program caught and put into an array is raised when the program takes it out,
and the array has lost it. -/
theorem pop_raises_and_removes :
    let source := "var a = []\ntry \x7b error(\"x\") \x7d catch \x7b a.add(error) \x7d\na.pop"
    let session := Session.start .default (.fromMemory []) "main.kes"
    ∃ method reached, session.run source = .ok (.ok (.native method), reached) ∧
      ∃ array, reached.lookup "a" = .ok (.array array) ∧
      ∃ interrupt after,
        callValue reached.host.evaluator (.native method) [] "main.kes" 3 reached.state =
          .interrupted interrupt after ∧
        reached.state.store.get array = #[.error .runtime "x"] ∧ after.store.get array = #[] := by
  intro source session
  have hcheck : takesOutError (session.run source) = true := by decide +kernel
  unfold takesOutError at hcheck
  split at hcheck
  · next method reached hrun =>
    split at hcheck
    · next array hlookup =>
      split at hcheck
      · next interrupt after hfails =>
        exact ⟨method, reached, hrun, array, hlookup, interrupt, after, hfails,
          of_decide_eq_true hcheck⟩
      · cases hcheck
    · cases hcheck
  · cases hcheck

end Kestrel
