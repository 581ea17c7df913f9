import Kestrel.Proofs.Eval.Growing
import Kestrel.Proofs.Mention
import Kestrel.Proofs.Store

/-!
# What built-in operations change

An operator, an index, a property, a native function and a built-in method add cells to the store
and leave those that are there alone. The only exceptions are the methods that change their
receiver, and these change nothing else. So a container that an operation makes shares nothing with
the ones it is made from.
-/

namespace Kestrel

/-- One store comes after another one, and of the cells that were there only some have changed. -/
structure Store.GrowsBut (changed : Mention → Prop) (before after : Store) : Prop where
  size_le (kind : CellKind) : before.size kind ≤ after.size kind
  get_eq {kind : CellKind} {ref : Ref kind} :
    ref.index < before.size kind → ¬ changed (.cell ref) → after.get ref = before.get ref

namespace Store.GrowsBut

variable {changed : Mention → Prop} {before middle after : Store}

/-- A store that only grew. -/
theorem of_grows (hgrows : before.Grows after) : before.GrowsBut changed after :=
  ⟨hgrows.size_le, fun hlt _ => hgrows.get_eq hlt⟩

/-- More cells may have changed. -/
theorem mono {more : Mention → Prop} (hgrows : before.GrowsBut changed after)
    (hmore : ∀ mention, changed mention → more mention) : before.GrowsBut more after :=
  ⟨hgrows.size_le, fun hlt hnot => hgrows.get_eq hlt fun hchanged => hnot (hmore _ hchanged)⟩

/-- Steps that change some of the cells can follow each other. -/
theorem trans (hfirst : before.GrowsBut changed middle) (hsecond : middle.GrowsBut changed after) :
    before.GrowsBut changed after where
  size_le kind := Nat.le_trans (hfirst.size_le kind) (hsecond.size_le kind)
  get_eq {kind ref} hlt hnot := by
    have hmiddle : ref.index < middle.size kind := Nat.lt_of_lt_of_le hlt (hfirst.size_le kind)
    exact (hsecond.get_eq hmiddle hnot).trans (hfirst.get_eq hlt hnot)

/-- A change of a cell that may change. -/
theorem modify {kind : CellKind} {ref : Ref kind} (hchanged : changed (.cell ref)) (store : Store)
    (f : kind.Content → kind.Content) : store.GrowsBut changed (store.modify ref f) where
  size_le other := Nat.le_of_eq (store.size_modify ref f other).symm
  get_eq {other held} _ hnot := by
    refine Store.get_modify_of_ne (fun hkind hindex => hnot ?_) f
    subst hkind
    rwa [Ref.eq_of_index_eq hindex]

end Store.GrowsBut

/-- Wherever a computation begins and however it ends, only some of the cells that were there have
changed. -/
def Eval.ChangesOnly {α : Type} (changed : Mention → Prop) (computation : Eval α) : Prop :=
  ∀ state after, (computation state).after? = some after →
    state.store.GrowsBut changed after.store

namespace Eval.ChangesOnly

variable {α β : Type} {changed : Mention → Prop}

/-- What changes no cell. -/
theorem of_keepsStore {computation : Eval α} (hkeeps : computation.KeepsStore) :
    computation.ChangesOnly changed := by
  intro state after hafter
  rw [hkeeps state after hafter]
  exact .of_grows (.refl _)

/-- Two computations in a row change what one of them changes. -/
theorem bind {first : Eval α} {next : α → Eval β} (hfirst : first.ChangesOnly changed)
    (hnext : ∀ value, (next value).ChangesOnly changed) : (first >>= next).ChangesOnly changed := by
  intro state after hafter
  rw [bind_apply] at hafter
  cases hend : first state with
  | value value middle =>
    rw [hend] at hafter
    exact (hfirst state middle (by rw [hend]; rfl)).trans (hnext value middle after hafter)
  | interrupted interrupt middle =>
    rw [hend] at hafter
    exact hfirst state after (by rw [hend]; exact hafter)
  | halted reason =>
    rw [hend] at hafter
    cases hafter

/-- A new cell changes none that is there. -/
theorem newCell (kind : CellKind) (content : kind.Content) :
    (Eval.newCell kind content).ChangesOnly changed := by
  rintro state after ⟨⟩
  exact .of_grows (.add _ _ _)

/-- A new array. -/
theorem newArray (items : List Value) : (Eval.newArray items).ChangesOnly changed :=
  bind (newCell _ _) fun _ => of_keepsStore (.pure _)

/-- A change of a cell that may change. -/
theorem modifyCell {kind : CellKind} {ref : Ref kind} (hchanged : changed (.cell ref))
    (f : kind.Content → kind.Content) : (Eval.modifyCell ref f).ChangesOnly changed := by
  rintro state after ⟨⟩
  exact .modify hchanged _ f

/-- A change of a cell after a look at the store, with something to give. -/
theorem afterView {f : Store → Except Cause α} {next : α → Eval β}
    (hnext : ∀ value, (next value).ChangesOnly changed) :
    (Eval.viewOrFail f >>= next).ChangesOnly changed :=
  bind (of_keepsStore (.viewOrFail f)) hnext

end Eval.ChangesOnly

/-- The methods that change their receiver, with the cell that they change. -/
inductive Native.Changes : Native → Mention → Prop
  | array (ref : Ref .array) {method : ArrayMethod}
    (hmethod : method ∈ [.add, .insert, .remove, .pop, .reverse]) :
    Changes (.ofArray ref method) (.cell ref)
  | dictionary (ref : Ref .dictionary) {method : DictionaryMethod}
    (hmethod : method ∈ [.add, .remove]) : Changes (.ofDictionary ref method) (.cell ref)
  | append (ref : Ref .buffer) : Changes (.ofText (.buffer ref) .append) (.cell ref)

namespace Eval.ChangesOnly

/-- A method of a text changes the text that it appends to. -/
theorem callTextMethod (receiver : TextValue) (method : TextMethod) (args : Arguments) :
    (Kestrel.callTextMethod receiver method args).ChangesOnly
      (Native.ofText receiver method).Changes := by
  unfold Kestrel.callTextMethod
  cases method with
  | split => exact afterView fun _ => newArray _
  | mutable =>
    exact bind (of_keepsStore (.view _)) fun content =>
      bind (newCell _ _) fun _ => of_keepsStore (.pure _)
  | append =>
    refine afterView fun suffix => ?_
    cases receiver with
    | fixed text => exact of_keepsStore (.pure _)
    | buffer ref => exact bind (modifyCell (.append ref) _) fun _ => of_keepsStore (.pure _)
  | _ => exact of_keepsStore (.viewOrFail _)

/-- A method of an array changes the array at most. -/
theorem callArrayMethod (receiver : Ref .array) (method : ArrayMethod) (args : Arguments) :
    (Kestrel.callArrayMethod receiver method args).ChangesOnly
      (Native.ofArray receiver method).Changes := by
  have hchange (method : ArrayMethod)
      (hmethod : method ∈ [ArrayMethod.add, .insert, .remove, .pop, .reverse])
      (f : Array Value → Array Value) (value : Value) :
      (do Eval.modifyCell receiver f; return value : Eval Value).ChangesOnly
        (Native.ofArray receiver method).Changes :=
    bind (modifyCell (Native.Changes.array receiver hmethod) f) fun _ => of_keepsStore (.pure _)
  unfold Kestrel.callArrayMethod
  cases method with
  | len => exact of_keepsStore (.bind (.view _) fun _ => .pure _)
  | add => exact hchange .add (by simp) _ _
  | insert => exact afterView fun found => hchange .insert (by simp) _ _
  | remove => exact afterView fun found => hchange .remove (by simp) _ _
  | pop => exact afterView fun found => hchange .pop (by simp) _ _
  | reverse => exact hchange .reverse (by simp) _ _
  | slice => exact afterView fun _ => newArray _
  | copy => exact bind (of_keepsStore (.view _)) fun _ => newArray _
  | _ => exact of_keepsStore (.viewOrFail _)

/-- A method of a dictionary changes the dictionary at most. -/
theorem callDictionaryMethod (receiver : Ref .dictionary) (method : DictionaryMethod)
    (args : Arguments) : (Kestrel.callDictionaryMethod receiver method args).ChangesOnly
      (Native.ofDictionary receiver method).Changes := by
  have hchange (method : DictionaryMethod) (hmethod : method ∈ [DictionaryMethod.add, .remove])
      (f : OrderedMap Value → OrderedMap Value) (value : Value) :
      (do Eval.modifyCell receiver f; return value : Eval Value).ChangesOnly
        (Native.ofDictionary receiver method).Changes :=
    bind (modifyCell (Native.Changes.dictionary receiver hmethod) f) fun _ =>
      of_keepsStore (.pure _)
  unfold Kestrel.callDictionaryMethod
  cases method with
  | len => exact of_keepsStore (.bind (.view _) fun _ => .pure _)
  | add => exact afterView fun found => hchange .add (by simp) _ _
  | remove => exact afterView fun found => hchange .remove (by simp) _ _
  | keys => exact bind (of_keepsStore (.view _)) fun _ => newArray _
  | values => exact bind (of_keepsStore (.view _)) fun _ => newArray _
  | _ => exact of_keepsStore (.viewOrFail _)

/-- A built-in function changes no cell that is there. -/
theorem callBuiltin (function : Builtin) (args : Arguments) :
    (Kestrel.callBuiltin function args).ChangesOnly (Native.builtin function).Changes := by
  unfold Kestrel.callBuiltin
  cases function with
  | print => exact of_keepsStore (.bind (.view _) fun _ => .printPieces _ _)
  | println => exact of_keepsStore (.bind (.view _) fun _ => .printPieces _ _)
  | range => exact bind (of_keepsStore (.lift _)) fun _ => newArray _
  | _ => exact of_keepsStore (.viewOrFail _)

/-- A native function changes the receiver of a method that changes it, and nothing else. -/
theorem runNative (native : Native) (arguments : List Value) :
    (Kestrel.runNative native arguments).ChangesOnly native.Changes := by
  unfold Kestrel.runNative
  cases native with
  | builtin function => exact callBuiltin function _
  | ofNumber receiver method => exact of_keepsStore (.pure _)
  | ofText receiver method => exact callTextMethod receiver method _
  | ofArray receiver method => exact callArrayMethod receiver method _
  | ofDictionary receiver method => exact callDictionaryMethod receiver method _

end Eval.ChangesOnly

/-- What a value has under a name, called: a method, and by a slice the method `slice`. -/
def callProperty (evaluator : Evaluator) (object : Value) (name : String) (arguments : List Value)
    (module : String) (line : Nat) : Eval Value := do
  let method ← getProperty object name
  callValue evaluator method arguments module line

/-- A slice is a call of the method `slice`. -/
theorem evaluateSlice_eq (evaluator : Evaluator) (scope : Scope) (object : Expression)
    (start stop : Option Expression) (line : Nat) :
    evaluateSlice evaluator scope object start stop line = (do
      let object ← evaluator.expression scope object
      let arguments ← evaluateBounds evaluator scope start stop
      callProperty evaluator object "slice" arguments scope.module line) := rfl

/-- Something that a program does with values, after these were evaluated. With short circuit, `and`
and `or` take the truth of one operand at a time. -/
inductive Operation where
  | truth (operand : Value)
  | unary (operator : UnaryOperator) (operand : Value)
  | binary (operator : BinaryOperator) (left right : Value)
  | index (object index : Value)
  | property (object : Value) (name : String)
  | call (callee : Value) (arguments : List Value)
  | method (object : Value) (name : String) (arguments : List Value)

namespace Operation

/-- What an operation does, on a line of a module. -/
def carryOut (evaluator : Evaluator) (module : String) (line : Nat) : Operation → Eval Value
  | truth operand => .lift (operand.toBool.map Value.bool)
  | unary operator operand => .lift (applyUnary operator operand)
  | binary operator left right => applyBinary operator left right
  | index object place => .viewOrFail fun store => indexValue store object place
  | property object name => getProperty object name
  | call callee arguments => callValue evaluator callee arguments module line
  | method object name arguments => callProperty evaluator object name arguments module line

end Operation

/-- What a call comes to. -/
inductive Callee where
  | native (native : Native)
  /-- A function of the program. -/
  | program

/-- What a value is as something to call. -/
def Value.callee? (store : Store) : Value → Option Callee
  | native ref => some (.native (store.get ref))
  | function _ => some .program
  | _ => none

/-- What a property is as something to call. -/
def Property.callee? (store : Store) : Property → Option Callee
  | value held => held.callee? store
  | native bound => some (.native bound)
  | method _ _ => some .program

/-- What an operation calls, if it calls anything. -/
def Operation.callee? (store : Store) : Operation → Option Callee
  | call callee _ => callee.callee? store
  | method object name _ => (property? store object name).bind (Property.callee? store)
  | _ => none

section Operations

variable {evaluator : Evaluator} {module : String} {line : Nat} {state : State}
  {operation : Operation} {native : Native} {object : Value} {name : String}
  {arguments : List Value}

/-- A value that is a native function is called as one. -/
theorem callValue_of_native {callee : Value}
    (hcallee : callee.callee? state.store = some (.native native)) :
    callValue evaluator callee arguments module line state =
      (runNative native arguments state).raised := by
  cases callee with
  | native ref =>
    cases hcallee
    exact callValue_native evaluator ref arguments module line state
  | _ => cases hcallee

/-- A value that is nothing to call cannot be called. -/
theorem callValue_growsOnly {callee : Value} (hcallee : callee.callee? state.store = none) :
    (callValue evaluator callee arguments module line state).GrowsOnly state := by
  cases callee with
  | native ref => cases hcallee
  | function ref => cases hcallee
  | _ => exact Eval.lift_growsOnly (.error _) state

/-- What is called under a name is a built-in method, bound to a new native function. -/
theorem callProperty_native
    (hproperty : property? state.store object name = some (.native native)) :
    callProperty evaluator object name arguments module line state =
      (runNative native arguments
        { state with store := state.store.add .native native }).raised := by
  have hbound : getProperty object name state = .value (.native (state.store.next .native))
      { state with store := state.store.add .native native } := getProperty_of_some hproperty
  unfold callProperty
  rw [Eval.bind_of_value hbound, callValue_native, Store.get_add_next]

/-- What is called under a name is the value held there. -/
theorem callProperty_value {value : Value}
    (hproperty : property? state.store object name = some (.value value)) :
    callProperty evaluator object name arguments module line state =
      callValue evaluator value arguments module line state := by
  have hheld : getProperty object name state = .value value state := getProperty_of_some hproperty
  exact Eval.bind_of_value hheld _

/-- Under a name that stands for nothing, nothing is called. -/
theorem callProperty_none (hproperty : property? state.store object name = none) :
    (callProperty evaluator object name arguments module line state).GrowsOnly state := by
  have hnone := getProperty_growsOnly object name state
  unfold callProperty
  rw [Eval.bind_apply]
  unfold getProperty at hnone ⊢
  rw [Eval.bind_of_interrupted (Eval.viewOrFail_of_error (by rw [hproperty]))] at hnone ⊢
  exact hnone

/-- A native function is called with its arguments, after at most a cell for it was added. -/
theorem Operation.carryOut_of_native
    (hcallee : operation.callee? state.store = some (.native native)) (evaluator : Evaluator)
    (module : String) (line : Nat) : ∃ start arguments,
      operation.carryOut evaluator module line state = (runNative native arguments start).raised ∧
        state.store.Grows start.store ∧
        ∀ kind, kind ≠ .native → start.store.next kind = state.store.next kind := by
  cases operation with
  | call callee arguments =>
    exact ⟨state, arguments, callValue_of_native hcallee, .refl _, fun _ _ => rfl⟩
  | method object name arguments =>
    obtain ⟨property, hproperty, hcallee⟩ := Option.bind_eq_some_iff.mp hcallee
    cases property with
    | value held =>
      refine ⟨state, arguments, ?_, .refl _, fun _ _ => rfl⟩
      exact (callProperty_value hproperty).trans (callValue_of_native hcallee)
    | native bound =>
      cases hcallee
      refine ⟨_, arguments, callProperty_native hproperty,
        Store.Grows.add state.store .native native, fun kind hkind => ?_⟩
      exact congrArg Ref.mk (Store.size_add_of_ne hkind _)
    | method function receiver => cases hcallee
  | _ => cases hcallee

/-- An operation that calls nothing only adds cells. -/
theorem Operation.carryOut_growsOnly (hcallee : operation.callee? state.store = none) :
    (operation.carryOut evaluator module line state).GrowsOnly state := by
  cases operation with
  | truth operand => exact Eval.lift_growsOnly (operand.toBool.map Value.bool) state
  | unary operator operand => exact Eval.lift_growsOnly (applyUnary operator operand) state
  | binary operator left right => exact applyBinary_growsOnly operator left right state
  | index object place =>
    exact Eval.viewOrFail_growsOnly (fun store => indexValue store object place) state
  | property object name => exact getProperty_growsOnly object name state
  | call callee arguments => exact callValue_growsOnly hcallee
  | method object name arguments =>
    change (callProperty evaluator object name arguments module line state).GrowsOnly state
    cases hproperty : property? state.store object name with
    | none => exact callProperty_none hproperty
    | some property =>
      have hnone : property.callee? state.store = none :=
        Option.bind_eq_none_iff.mp hcallee property hproperty
      cases property with
      | value held =>
        rw [callProperty_value hproperty]
        exact callValue_growsOnly hnone
      | native bound => cases hnone
      | method function receiver => cases hnone

/-- Raising an error value changes nothing more. -/
theorem Result.after?_raised (result : Result Value) : result.raised.after? = result.after? := by
  cases result with
  | value value after => cases value <;> rfl
  | interrupted interrupt after => rfl
  | halted reason => rfl

/-- A value that is not raised was given. -/
theorem Result.eq_of_raised {result : Result Value} {value : Value} {after : State}
    (hraised : result.raised = .value value after) : result = .value value after := by
  unfold raised at hraised
  split at hraised
  · cases hraised
  · exact hraised

/-- Of the cells that are there, an operation that calls no function of the program changes at most
the receiver of a built-in method that changes its receiver. -/
theorem Operation.growsBut (hcallee : operation.callee? state.store ≠ some .program) {after : State}
    (hafter : (operation.carryOut evaluator module line state).after? = some after) :
    state.store.GrowsBut (fun mention => ∃ native,
        operation.callee? state.store = some (.native native) ∧ native.Changes mention)
      after.store := by
  cases hcalled : operation.callee? state.store with
  | none =>
    have hgrows := @carryOut_growsOnly evaluator module line state operation hcalled
    exact .of_grows (Result.GrowsOnly.of_after hgrows hafter).store
  | some callee =>
    cases callee with
    | program => exact absurd hcalled hcallee
    | native native =>
      obtain ⟨start, arguments, hend, hgrows, _⟩ := carryOut_of_native hcalled evaluator module line
      rw [hend, Result.after?_raised] at hafter
      have hchanges := Eval.ChangesOnly.runNative native arguments start after hafter
      refine (Store.GrowsBut.of_grows hgrows).trans (hchanges.mono fun mention hmention => ?_)
      exact ⟨native, rfl, hmention⟩

end Operations

/-- The kind of container that a native function makes. -/
def Native.makes? : Native → Option CellKind
  | .ofArray _ .copy => some .array
  | .ofArray _ .slice => some .array
  | .ofText _ .split => some .array
  | .ofText _ .mutable => some .buffer
  | .ofDictionary _ .keys => some .array
  | .ofDictionary _ .values => some .array
  | .builtin .range => some .array
  | _ => none

/-- A native function that makes a container gives a new cell of this kind. -/
theorem Native.runNative_of_makes {native : Native} {kind : CellKind} {arguments : List Value}
    {state after : State} {given : Value} (hmakes : native.makes? = some kind)
    (hvalue : runNative native arguments state = .value given after) :
    given.mentions = [.cell (state.store.next kind)] ∧
      ∃ content, after.store = state.store.add kind content := by
  have hcell {α : Type} {first : Eval α} (hfirst : first.KeepsStore) {kind : CellKind}
      {content : α → kind.Content} {make : Ref kind → Value}
      (hmake : ∀ ref, (make ref).mentions = [.cell ref])
      (hvalue : (first >>= fun found =>
        (do return make (← Eval.newCell kind (content found)) : Eval Value)) state =
          .value given after) :
      given.mentions = [.cell (state.store.next kind)] ∧
        ∃ content, after.store = state.store.add kind content := by
    obtain ⟨found, middle, hfound, hmade⟩ := Eval.bind_eq_value hvalue
    have hmiddle : middle.store = state.store := hfirst state middle (by rw [hfound]; rfl)
    cases hmade
    rw [← hmiddle]
    exact ⟨hmake _, content found, rfl⟩
  cases native with
  | builtin function =>
    cases function with
    | range =>
      cases hmakes
      exact @hcell _ _ (.lift _) .array List.toArray .array (fun _ => rfl) hvalue
    | _ => cases hmakes
  | ofNumber receiver method => cases hmakes
  | ofText receiver method =>
    cases method with
    | split =>
      cases hmakes
      exact hcell (.viewOrFail _) (fun _ => rfl) hvalue
    | mutable =>
      cases hmakes
      exact hcell (.view _) (fun _ => rfl) hvalue
    | _ => cases hmakes
  | ofArray receiver method =>
    cases method with
    | slice =>
      cases hmakes
      exact hcell (.viewOrFail _) (fun _ => rfl) hvalue
    | copy =>
      cases hmakes
      exact hcell (.view _) (fun _ => rfl) hvalue
    | _ => cases hmakes
  | ofDictionary receiver method =>
    cases method with
    | keys =>
      cases hmakes
      exact hcell (.view _) (fun _ => rfl) hvalue
    | values =>
      cases hmakes
      exact hcell (.view _) (fun _ => rfl) hvalue
    | _ => cases hmakes

/-- An operation makes a container: the sum of two arrays, or what a native function makes. -/
inductive Operation.Makes (store : Store) : Operation → CellKind → Prop
  | sum (left right : Ref .array) : Makes store (.binary .add (.array left) (.array right)) .array
  | native {operation : Operation} {native : Native} {kind : CellKind}
    (hcallee : operation.callee? store = some (.native native))
    (hmakes : native.makes? = some kind) : Makes store operation kind

/-- The container that an operation makes is a new cell. -/
theorem Operation.Makes.new {operation : Operation} {kind : CellKind} {evaluator : Evaluator}
    {module : String} {line : Nat} {state after : State} {given : Value}
    (hmakes : operation.Makes state.store kind)
    (hvalue : operation.carryOut evaluator module line state = .value given after) :
    given.mentions = [.cell (state.store.next kind)] ∧
      (state.store.next kind).index < after.store.size kind := by
  have hlt (start : State) (content : kind.Content)
      (hafter : after.store = start.store.add kind content)
      (hnext : start.store.next kind = state.store.next kind) :
      (state.store.next kind).index < after.store.size kind := by
    rw [hafter, ← hnext]
    exact start.store.next_lt_size_add kind content
  cases hmakes with
  | sum left right =>
    cases hvalue
    exact ⟨rfl, hlt state _ rfl rfl⟩
  | native hcallee hmakes =>
    obtain ⟨start, arguments, hend, _, hnext⟩ :=
      carryOut_of_native hcallee evaluator module line
    have hkind : start.store.next kind = state.store.next kind := by
      refine hnext kind ?_
      rintro rfl
      unfold Native.makes? at hmakes
      split at hmakes <;> cases hmakes
    rw [hend] at hvalue
    obtain ⟨hgiven, content, hafter⟩ :=
      Native.runNative_of_makes hmakes (Result.eq_of_raised hvalue)
    rw [hkind] at hgiven
    exact ⟨hgiven, hlt start content hafter hkind⟩

/-- A step that may change what a cell holds: a built-in method that changes its receiver, or an
assignment to an index or a property. -/
inductive Mutates (before after : State) : Mention → Prop
  | method {native : Native} {operation : Operation} {mention : Mention} {evaluator : Evaluator}
    {module : String} {line : Nat}
    (hcallee : operation.callee? before.store = some (.native native))
    (hchanges : native.Changes mention)
    (hafter : (operation.carryOut evaluator module line before).after? = some after) :
    Mutates before after mention
  | index {object index value : Value} {mention : Mention} (hobject : mention ∈ object.mentions)
    (hafter : (assignIndex object index value before).after? = some after) :
    Mutates before after mention
  | member {object value : Value} {name : String} {mention : Mention}
    (hobject : mention ∈ object.mentions)
    (hafter : (assignMember object name value before).after? = some after) :
    Mutates before after mention

namespace Eval.ChangesOnly

/-- An assignment to an index changes what is indexed. -/
theorem assignIndex (object index value : Value) :
    (Kestrel.assignIndex object index value).ChangesOnly (· ∈ object.mentions) := by
  unfold Kestrel.assignIndex
  cases object with
  | array ref => exact afterView fun place => modifyCell (List.mem_singleton_self _) _
  | dictionary ref =>
    exact bind (of_keepsStore (.view _)) fun key => modifyCell (List.mem_singleton_self _) _
  | _ => exact of_keepsStore (.lift (.error _))

/-- An assignment to a property changes what has the property. -/
theorem assignMember (object : Value) (name : String) (value : Value) :
    (Kestrel.assignMember object name value).ChangesOnly (· ∈ object.mentions) := by
  unfold Kestrel.assignMember
  cases object with
  | object ref =>
    refine bind (of_keepsStore (.view _)) fun template => ?_
    split
    · exact modifyCell (List.mem_singleton_self _) _
    · exact of_keepsStore (.lift (.error _))
  | dictionary ref => exact modifyCell (List.mem_singleton_self _) _
  | _ => exact of_keepsStore (.lift (.error _))

end Eval.ChangesOnly

/-- A method changes at most one cell. -/
theorem Native.Changes.unique {native : Native} {first second : Mention}
    (hfirst : native.Changes first) (hsecond : native.Changes second) : first = second := by
  cases hfirst <;> cases hsecond <;> rfl

/-- A value mentions one cell at most. -/
theorem Value.mentions_unique {value : Value} {first second : Mention}
    (hfirst : first ∈ value.mentions) (hsecond : second ∈ value.mentions) : first = second := by
  have hsingle (mention : Mention) (hfirst : first ∈ [mention]) (hsecond : second ∈ [mention]) :
      first = second :=
    (List.mem_singleton.mp hfirst).trans (List.mem_singleton.mp hsecond).symm
  cases value with
  | text content =>
    cases content with
    | fixed text => cases hfirst
    | buffer ref => exact hsingle _ hfirst hsecond
  | number x => cases hfirst
  | bool truth => cases hfirst
  | nothing => cases hfirst
  | error kind message => cases hfirst
  | _ => exact hsingle _ hfirst hsecond

/-- A step that may change a cell changes no other one. -/
theorem Mutates.get_eq {before after : State} {mention : Mention} {kind : CellKind}
    {ref : Ref kind} (hmutates : Mutates before after mention)
    (hlt : ref.index < before.store.size kind) (hother : mention ≠ .cell ref) :
    after.store.get ref = before.store.get ref := by
  cases hmutates with
  | @method native operation _ evaluator module line hcallee hchanges hafter =>
    have hnative : operation.callee? before.store ≠ some .program := by
      rw [hcallee]
      simp
    refine (Operation.growsBut hnative hafter).get_eq hlt ?_
    rintro ⟨other, hcalled, hchanged⟩
    rw [hcallee] at hcalled
    cases hcalled
    exact hother (hchanges.unique hchanged)
  | @index object place value _ hobject hafter =>
    refine (Eval.ChangesOnly.assignIndex object place value before after hafter).get_eq hlt ?_
    exact fun hmem => hother (Value.mentions_unique hobject hmem)
  | @member object value name _ hobject hafter =>
    refine (Eval.ChangesOnly.assignMember object name value before after hafter).get_eq hlt ?_
    exact fun hmem => hother (Value.mentions_unique hobject hmem)

/-- An operation that calls no function of the program leaves every cell that is there as it was,
but for the receiver of a built-in method that changes its receiver. The container that an operation
makes is a new cell, which was not there before; from then on, whatever changes it leaves all that
was there before as it is, and what changes something of that leaves the container as it is. -/
theorem builtin_changes_only_receiver (evaluator : Evaluator) (module : String) (line : Nat)
    (state : State) (operation : Operation)
    (hcallee : operation.callee? state.store ≠ some .program) :
    (∀ after, (operation.carryOut evaluator module line state).after? = some after →
      ∀ (kind : CellKind) (ref : Ref kind), ref.index < state.store.size kind →
        ref.index < after.store.size kind ∧
        (after.store.get ref = state.store.get ref ∨
          ∃ native, operation.callee? state.store = some (.native native) ∧
            native.Changes (.cell ref))) ∧
    ∀ kind given after, operation.Makes state.store kind →
      operation.carryOut evaluator module line state = .value given after →
      given.mentions = [.cell (state.store.next kind)] ∧
      (state.store.next kind).index = state.store.size kind ∧
      (state.store.next kind).index < after.store.size kind ∧
      ∀ (other : CellKind) (ref : Ref other), ref.index < state.store.size other →
        ∀ before final : State, (∀ kind, after.store.size kind ≤ before.store.size kind) →
          (Mutates before final (.cell (state.store.next kind)) →
            final.store.get ref = before.store.get ref) ∧
          (Mutates before final (.cell ref) →
            final.store.get (state.store.next kind) =
              before.store.get (state.store.next kind)) := by
  constructor
  · intro after hafter kind ref hlt
    have hgrows := Operation.growsBut hcallee hafter
    refine ⟨Nat.lt_of_lt_of_le hlt (hgrows.size_le kind), ?_⟩
    by_cases hchanged : ∃ native, operation.callee? state.store = some (.native native) ∧
      native.Changes (.cell ref)
    · exact .inr hchanged
    · exact .inl (hgrows.get_eq hlt hchanged)
  · intro kind given after hmakes hvalue
    obtain ⟨hgiven, hmade⟩ := hmakes.new hvalue
    refine ⟨hgiven, rfl, hmade, fun other ref hlt before final hlater => ?_⟩
    have hne : (Mention.cell (state.store.next kind)) ≠ .cell ref := by
      intro heq
      cases heq
      exact Nat.lt_irrefl _ hlt
    have hafter : (operation.carryOut evaluator module line state).after? = some after := by
      rw [hvalue]
      rfl
    have hthere : ref.index < before.store.size other :=
      Nat.lt_of_lt_of_le hlt
        (Nat.le_trans ((Operation.growsBut hcallee hafter).size_le other) (hlater other))
    constructor
    · exact fun hmutates => hmutates.get_eq hthere hne
    · exact fun hmutates =>
        hmutates.get_eq (Nat.lt_of_lt_of_le hmade (hlater kind)) hne.symm

/-- An array is copied and the copy is added to. The copy is another array, and the array that was
copied holds what it held. -/
theorem copy_leaves_original :
    let items : Ref .array := ⟨0⟩
    let copied : Ref .array := ⟨1⟩
    let state : State := { (default : State) with store := Store.empty.add .array #[.bool true] }
    let evaluator := Evaluator.ofSteps ⟨false, .fromMemory [], []⟩ 0
    let copying := Operation.method (.array items) "copy" []
    let adding := Operation.method (.array copied) "add" [.bool false]
    copying.callee? state.store ≠ some .program ∧ copying.Makes state.store .array ∧
      ∃ after final, copying.carryOut evaluator "main" 1 state = .value (.array copied) after ∧
        (adding.carryOut evaluator "main" 2 after).after? = some final ∧
        final.store.get copied = #[.bool true, .bool false] ∧
        final.store.get items = after.store.get items := by
  intro items copied state evaluator copying adding
  have hcalled : copying.callee? state.store = some (.native (.ofArray items .copy)) := rfl
  have hcallee : copying.callee? state.store ≠ some .program := by
    rw [hcalled]
    simp
  have hmakes : copying.Makes state.store .array := .native hcalled rfl
  obtain ⟨after, final, hcopy, hadd, hcontent⟩ : ∃ after final,
      copying.carryOut evaluator "main" 1 state = .value (.array copied) after ∧
        (adding.carryOut evaluator "main" 2 after).after? = some final ∧
        final.store.get copied = #[.bool true, .bool false] := ⟨_, _, rfl, rfl, rfl⟩
  refine ⟨hcallee, hmakes, after, final, hcopy, hadd, hcontent, ?_⟩
  obtain ⟨_, _, _, hshares⟩ := (builtin_changes_only_receiver evaluator "main" 1 state copying
    hcallee).2 .array (.array copied) after hmakes hcopy
  have hadding : adding.callee? after.store = some (.native (.ofArray copied .add)) := rfl
  have hmutates : Mutates after final (.cell copied) :=
    .method hadding (.array copied (by simp)) hadd
  exact (hshares .array items (by decide) after final (fun _ => Nat.le_refl _)).1 hmutates

end Kestrel
