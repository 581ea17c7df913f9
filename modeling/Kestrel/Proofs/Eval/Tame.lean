import Kestrel.Proofs.Eval.Ordinary
import Kestrel.Proofs.Eval.Plain
import Kestrel.Proofs.Store
import Kestrel.Proofs.Syntax.Runnable

/-!
# Tame computations

The functions in a store hold code, and a program can come to run any of it. A tame computation
makes functions only of code that can be run, and all its failures are ordinary. This file proves
that the plain steps of all constructs are tame; those that make a function are so if its body can
be run.
-/

namespace Kestrel

open SyntaxNode (Runs AllRun)

/-- A store whose functions can be run. -/
def Store.FunctionsRun (store : Store) : Prop :=
  ∀ closure ∈ store.functions, (SyntaxNode.block closure.body).Runs

namespace Store

variable {kind : CellKind} {store : Store}

/-- A cell of another kind is no function. -/
theorem functions_add_of_ne (hkind : kind ≠ .function) (content : kind.Content) :
    (store.add kind content).functions = store.functions :=
  table_mapTable_of_ne hkind.symm _

/-- A change of a cell of another kind changes no function. -/
theorem functions_modify_of_ne (hkind : kind ≠ .function) (ref : Ref kind)
    (f : kind.Content → kind.Content) : (store.modify ref f).functions = store.functions :=
  table_mapTable_of_ne hkind.symm _

namespace FunctionsRun

/-- Only the functions matter. -/
theorem of_eq {after : Store} (hruns : store.FunctionsRun)
    (hsame : after.functions = store.functions) : after.FunctionsRun := by
  unfold FunctionsRun
  rw [hsame]
  exact hruns

/-- A new cell that is no function leaves the functions as they are. -/
theorem add_of_ne (hruns : store.FunctionsRun) (hkind : kind ≠ .function) (content : kind.Content) :
    (store.add kind content).FunctionsRun :=
  hruns.of_eq (functions_add_of_ne hkind content)

/-- A change of a cell that is no function leaves the functions as they are. -/
theorem modify_of_ne (hruns : store.FunctionsRun) (hkind : kind ≠ .function) (ref : Ref kind)
    (f : kind.Content → kind.Content) : (store.modify ref f).FunctionsRun :=
  hruns.of_eq (functions_modify_of_ne hkind ref f)

/-- A new function. -/
theorem add_function (hruns : store.FunctionsRun) {closure : Closure}
    (hbody : (SyntaxNode.block closure.body).Runs) :
    (store.add .function closure).FunctionsRun := by
  intro other hother
  rcases Array.mem_push.mp hother with hother | rfl
  · exact hruns other hother
  · exact hbody

/-- What a reference to a function stands for, also if there is none, has a body that can be run. -/
theorem body (hruns : store.FunctionsRun) (ref : Ref .function) :
    (SyntaxNode.block (store.get ref).body).Runs := by
  change (SyntaxNode.block (store.functions[ref.index]?.getD default).body).Runs
  cases hcell : store.functions[ref.index]? with
  | none => exact .intro trivial SyntaxNode.allRun_nil
  | some closure => exact hruns closure (Array.mem_of_getElem? hcell)

end FunctionsRun

end Store

namespace Scope

variable {store : Store}

/-- Binding the built-in functions makes no function of the program. -/
theorem functions_bindBuiltins (scope : Scope) (store : Store) (builtins : List Builtin) :
    (scope.bindBuiltins store builtins).functions = store.functions := by
  induction builtins generalizing store with
  | nil => rfl
  | cons builtin others ih => exact ih _

/-- The scope of a module is made of scopes and built-in functions. -/
theorem functions_ofModule (store : Store) (module : String) (imports : Ref .imports) :
    (ofModule store module imports).2.functions = store.functions := by
  simp only [ofModule, root, child]
  rw [Store.functions_add_of_ne (by simp), functions_bindBuiltins,
    Store.functions_add_of_ne (by simp)]

/-- Making the scope of a main module makes no function. -/
theorem functions_ofMain (store : Store) (module : String) :
    (ofMain store module).2.functions = store.functions := by
  unfold ofMain
  rw [functions_ofModule, Store.functions_add_of_ne (by simp)]

end Scope

/-- An end after which functions can be run, and which is an ordinary failure if it is one. -/
def Result.Tame {α : Type} : Result α → Prop
  | .value _ after => after.store.FunctionsRun
  | .interrupted interrupt after =>
    after.store.FunctionsRun ∧ interrupt.asError.cause.Ordinary
  | .halted _ => True

/-- The state that a tame end leaves. -/
theorem Result.Tame.functionsRun {α : Type} {result : Result α} {after : State}
    (htame : result.Tame) (hafter : result.after? = some after) : after.store.FunctionsRun := by
  cases result with
  | value value final =>
    cases hafter
    exact htame
  | interrupted interrupt final =>
    cases hafter
    exact htame.1
  | halted reason => cases hafter

/-- A plain computation that, where functions can be run, ends so that they still can. -/
structure Eval.Tame {α : Type} (computation : Eval α) : Prop where
  plain : computation.Plain
  ends (state : State) (hruns : state.store.FunctionsRun) : (computation state).Tame

namespace Eval.Tame

variable {α β : Type}

/-- One tame computation after another is tame. -/
@[simp] theorem bind {first : Eval α} {next : α → Eval β} (hfirst : first.Tame)
    (hnext : ∀ value, (next value).Tame) : (first >>= next).Tame where
  plain := hfirst.plain.bind fun value => (hnext value).plain
  ends state hruns := by
    rw [bind_apply]
    have hends := hfirst.ends state hruns
    cases h : first state with
    | value value middle =>
      rw [h] at hends
      exact (hnext value).ends middle hends
    | interrupted interrupt middle =>
      rw [h] at hends
      exact hends
    | halted reason => trivial

@[simp] theorem pure (value : α) : (pure value : Eval α).Tame := ⟨.pure value, fun _ hruns => hruns⟩

@[simp] theorem map {computation : Eval α} (f : α → β) (htame : computation.Tame) :
    (f <$> computation).Tame := by
  rw [map_eq_pure_bind]
  exact bind htame fun value => pure (f value)

@[simp] theorem halt (reason : Halt) : (Eval.halt reason : Eval α).Tame :=
  ⟨.halt reason, fun _ _ => trivial⟩

/-- An ordinary failure is tame. -/
theorem fail {cause : Cause} (hordinary : cause.Ordinary) :
    (Eval.fail cause : Eval α).Tame :=
  ⟨.fail cause, fun _ hruns => ⟨hruns, hordinary⟩⟩

@[simp] theorem lift {outcome : Except Cause α} (hfails : Fails outcome Cause.Ordinary) :
    (Eval.lift outcome).Tame := by
  cases outcome with
  | ok value => exact pure value
  | error cause => exact fail (hfails cause rfl)

@[simp] theorem view (f : Store → α) : (Eval.view f).Tame := ⟨.view f, fun _ hruns => hruns⟩

@[simp] theorem viewOrFail {f : Store → Except Cause α}
    (hfails : ∀ store, Fails (f store) Cause.Ordinary) : (Eval.viewOrFail f).Tame where
  plain := .viewOrFail f
  ends state hruns := by
    unfold Eval.viewOrFail
    cases h : f state.store with
    | ok value => exact hruns
    | error cause => exact ⟨hruns, hfails _ cause h⟩

@[simp] theorem newCell {kind : CellKind} (hkind : kind ≠ .function) (content : kind.Content) :
    (Eval.newCell kind content).Tame :=
  ⟨.newCell kind content, fun _ hruns => hruns.add_of_ne hkind content⟩

/-- A function is made of code that can be run. -/
theorem newFunction {closure : Closure} (hbody : (SyntaxNode.block closure.body).Runs) :
    (Eval.newCell .function closure).Tame :=
  ⟨.newCell .function closure, fun _ hruns => hruns.add_function hbody⟩

@[simp] theorem modifyCell {kind : CellKind} (hkind : kind ≠ .function) (ref : Ref kind)
    (f : kind.Content → kind.Content) : (Eval.modifyCell ref f).Tame :=
  ⟨.modifyCell ref f, fun _ hruns => hruns.modify_of_ne hkind ref f⟩

/-- Printing is tame if the failure of the output is ordinary. -/
theorem print (text : String) {failure : Cause} (hordinary : failure.Ordinary) :
    (Eval.print text failure).Tame where
  plain := .print text failure
  ends state hruns := by
    unfold Eval.print
    split
    · exact hruns
    · exact ⟨hruns, hordinary⟩

@[simp] theorem newArray (items : List Value) : (Eval.newArray items).Tame :=
  bind (newCell (by simp) _) fun _ => pure _

@[simp] theorem newScope (scope : Scope) : (Eval.newScope scope).Tame :=
  ⟨.newScope scope, fun _ hruns => hruns.add_of_ne (by simp) _⟩

@[simp] theorem bindName (scope : Scope) (name : String) (value : Value) :
    (Eval.bindName scope name value).Tame :=
  ⟨.bindName scope name value, fun _ hruns => hruns.modify_of_ne (by simp) _ _⟩

@[simp] theorem declareName (scope : Scope) (name : String) (value : Value) :
    (Eval.declareName scope name value).Tame :=
  bind (viewOrFail fun _ => scope.fails_declarable name) fun _ => bindName scope name value

@[simp] theorem assignName (scope : Scope) (name : String) (value : Value) :
    (Eval.assignName scope name value).Tame :=
  bind (viewOrFail fun _ => scope.fails_assignable name) fun _ =>
    ⟨.change _, fun _ hruns => hruns.modify_of_ne (by simp) _ _⟩

section Natives

/-- The methods of texts are tame. -/
theorem callTextMethod (receiver : TextValue) (method : TextMethod) (args : Arguments) :
    (Kestrel.callTextMethod receiver method args).Tame := by
  unfold Kestrel.callTextMethod
  cases method with
  | mutable => exact bind (view _) fun _ => bind (newCell (by simp) _) fun _ => pure _
  | append =>
    refine bind (viewOrFail fun _ => args.fails_display 0) fun suffix => ?_
    cases receiver <;> simp
  | _ => simp

/-- The methods of arrays are tame. -/
theorem callArrayMethod (receiver : Ref .array) (method : ArrayMethod) (args : Arguments) :
    (Kestrel.callArrayMethod receiver method args).Tame := by
  have hchange (f : Array Value → Array Value) (value : Value) :
      (do Eval.modifyCell receiver f; return value : Eval Value).Tame :=
    bind (modifyCell (by simp) receiver f) fun _ => pure value
  unfold Kestrel.callArrayMethod
  cases method with
  | insert => exact bind (viewOrFail fun _ => by simp) fun _ => hchange _ _
  | remove => exact bind (viewOrFail fun _ => by simp) fun _ => hchange _ _
  | pop =>
    refine bind (viewOrFail fun _ => ?_) fun _ => hchange _ _
    split <;> simp [Cause.Ordinary]
  | find =>
    refine viewOrFail fun _ => .bind (args.fails_required 0) fun needle => ?_
    split <;> simp
  | _ => simp

/-- The methods of dictionaries are tame. -/
theorem callDictionaryMethod (receiver : Ref .dictionary) (method : DictionaryMethod)
    (args : Arguments) : (Kestrel.callDictionaryMethod receiver method args).Tame := by
  have hchange (f : OrderedMap Value → OrderedMap Value) (value : Value) :
      (do Eval.modifyCell receiver f; return value : Eval Value).Tame :=
    bind (modifyCell (by simp) receiver f) fun _ => pure value
  unfold Kestrel.callDictionaryMethod
  cases method with
  | add => exact bind (viewOrFail fun _ => by simp) fun _ => hchange _ _
  | remove =>
    refine bind (viewOrFail fun _ => .bind (args.fails_display 0) fun key => ?_) fun _ =>
      hchange _ _
    split <;> simp [Cause.Ordinary]
  | get =>
    refine viewOrFail fun _ => .bind (args.fails_display 0) fun key => ?_
    split <;> simp
  | _ => simp

/-- Printing piece by piece is tame. -/
theorem printPieces (callee : String) (pieces : List String) :
    (Kestrel.printPieces callee pieces).Tame := by
  unfold Kestrel.printPieces
  refine bind ?_ fun _ => pure _
  induction pieces with
  | nil => exact pure _
  | cons piece pieces ih =>
    rw [List.forIn_cons]
    refine bind (bind (print piece (by simp [Cause.Ordinary])) fun _ => pure _) fun step => ?_
    cases step with
    | done _ => exact pure _
    | yield _ => exact ih

/-- The functions that are built in are tame. -/
theorem callBuiltin (function : Builtin) (args : Arguments) :
    (Kestrel.callBuiltin function args).Tame := by
  unfold Kestrel.callBuiltin
  cases function <;> simp [printPieces]

/-- A native function fails in ordinary ways, also when it gives an error value that a program made.
-/
@[simp] theorem callNative (ref : Ref .native) (values : List Value) :
    (Kestrel.callNative ref values).Tame := by
  unfold Kestrel.callNative
  refine bind (view _) fun native => bind ?_ fun value => ?_
  · unfold Kestrel.runNative
    cases native <;>
      simp [callTextMethod, callArrayMethod, callDictionaryMethod, callBuiltin]
  · cases value with
    | error kind message => exact fail (by simp [Cause.Ordinary])
    | _ => exact pure _

end Natives

section Steps

/-- A bound method is a new function with the body of the method. -/
theorem toValue (property : Property) : property.toValue.Tame := by
  cases property with
  | value given => exact pure given
  | native method => exact bind (newCell (by simp) _) fun _ => pure _
  | method function object =>
    exact ⟨.toValue _, fun _ hruns => hruns.add_function (hruns.body function)⟩

@[simp] theorem getProperty (value : Value) (name : String) :
    (Kestrel.getProperty value name).Tame := by
  refine bind (viewOrFail fun store => ?_) fun property => toValue property
  split <;> simp [Cause.Ordinary]

@[simp] theorem applyBinary (operator : BinaryOperator) (left right : Value) :
    (Kestrel.applyBinary operator left right).Tame := by
  unfold Kestrel.applyBinary
  split <;> simp

@[simp] theorem assignedValue (operator : AssignOperator) {current : Eval Value} (value : Value)
    (hcurrent : current.Tame) : (Kestrel.assignedValue operator current value).Tame := by
  unfold Kestrel.assignedValue
  split <;> simp [hcurrent]

@[simp] theorem assignIndex (object index value : Value) :
    (Kestrel.assignIndex object index value).Tame := by
  unfold Kestrel.assignIndex
  split
  · exact bind (viewOrFail fun _ => by simp) fun _ => modifyCell (by simp) _ _
  · exact bind (view _) fun _ => modifyCell (by simp) _ _
  · exact fail (by simp [Cause.Ordinary])

@[simp] theorem assignMember (object : Value) (name : String) (value : Value) :
    (Kestrel.assignMember object name value).Tame := by
  unfold Kestrel.assignMember
  split
  · refine bind (view _) fun template => ?_
    split
    · exact modifyCell (by simp) _ _
    · exact fail (by simp [Cause.Ordinary])
  · exact modifyCell (by simp) _ _
  · exact fail (by simp [Cause.Ordinary])

/-- Binding the entry of a round in a new scope is tame. -/
theorem iterationScope (scope : Scope) (index : Option Identifier) (item : Identifier)
    (entry : Value × Value) : (Kestrel.iterationScope scope index item entry).Tame := by
  unfold Kestrel.iterationScope
  refine bind (newScope scope) fun inner => ?_
  cases index <;> simp

/-- Binding parameters to arguments is tame. -/
theorem bindParameters (scope : Scope) (parameters : List String) (arguments : List Value) :
    (Kestrel.bindParameters scope parameters arguments).Tame := by
  induction parameters generalizing arguments with
  | nil => exact pure _
  | cons parameter parameters ih =>
    cases arguments with
    | nil => exact bind (bindName _ _ _) fun _ => ih []
    | cons argument arguments => exact bind (bindName _ _ _) fun _ => ih arguments

/-- Making the scope of a call is tame. -/
theorem callScope (closure : Closure) (arguments : List Value) :
    (Kestrel.callScope closure arguments).Tame := by
  unfold Kestrel.callScope
  refine bind (newScope _) fun scope => bind (bindParameters _ _ _) fun _ => ?_
  split <;> simp

@[simp] theorem executeStruct (scope : Scope) (declaration : StructDeclaration) :
    (Kestrel.executeStruct scope declaration).Tame := by
  unfold Kestrel.executeStruct
  dsimp only
  split
  · exact fail (by simp [Cause.Ordinary])
  · exact bind (newCell (by simp) _) fun _ => declareName _ _ _

/-- The method that is declared has a body that can be run. -/
theorem executeMethod (scope : Scope) (structName : Identifier) {function : FunctionDeclaration}
    (hbody : (SyntaxNode.block function.body).Runs) :
    (Kestrel.executeMethod scope structName function).Tame := by
  unfold Kestrel.executeMethod
  refine bind (viewOrFail fun _ => scope.fails_lookup _) fun owner => ?_
  split
  · refine bind (view _) fun template => ?_
    split
    · exact fail (by simp [Cause.Ordinary])
    · exact bind (newFunction hbody) fun _ => modifyCell (by simp) _ _
  · exact fail (by simp [Cause.Ordinary])

/-- Making a member of a library is tame. -/
theorem libraryValue (member : LibraryMember) : (Kestrel.libraryValue member).Tame := by
  cases member with
  | function builtin => exact bind (newCell (by simp) _) fun _ => pure _
  | _ => exact pure _

/-- Making the members of a library is tame. -/
theorem libraryMembers (members : OrderedMap Value) (list : List (String × LibraryMember)) :
    (Kestrel.libraryMembers members list).Tame := by
  induction list generalizing members with
  | nil => exact pure _
  | cons entry others ih => exact bind (libraryValue entry.2) fun value => ih _

/-- The failures of a native library are its own. -/
theorem importLibrary (scope : Scope) {library : Library} {name : String}
    (hfails : Fails (library.content name) Cause.Ordinary) :
    (Kestrel.importLibrary scope library name).Tame := by
  unfold Kestrel.importLibrary
  refine bind (lift hfails) fun content => ?_
  cases content with
  | single member => exact bind (libraryValue member) fun value => bindName _ _ _
  | members list =>
    exact bind (libraryMembers _ _) fun _ => bind (newCell (by simp) _) fun _ => bindName _ _ _

/-- Loading the program of a module is tame. -/
theorem loadModule (loader : Loader) (path importer : String) :
    (Kestrel.loadModule loader path importer).Tame := by
  unfold Kestrel.loadModule
  split
  · exact pure _
  · exact fail (by simp [Cause.Ordinary])
  · exact halt _

/-- Making the scope of a module is tame. -/
theorem openScope (module : String) (imports : Ref .imports) :
    (Eval.allocate fun store => Scope.ofModule store module imports).Tame :=
  ⟨.allocate _, fun _ hruns => hruns.of_eq (Scope.functions_ofModule _ module imports)⟩

/-- Taking note of an import is tame. -/
theorem recordImport (scope : Scope) (target : String) :
    (Kestrel.recordImport scope target).Tame :=
  bind (viewOrFail fun _ => ImportGraph.fails_record _ _ _) fun _ => modifyCell (by simp) _ _

/-- The value that a program leaves is told in a tame way. -/
theorem programValue (signal : Signal) : (Kestrel.programValue signal).Tame := by
  cases signal with
  | value given => exact pure _
  | returned given => exact pure _
  | exit exit => exact fail (by simp [Cause.Ordinary])

end Steps

end Eval.Tame

end Kestrel
