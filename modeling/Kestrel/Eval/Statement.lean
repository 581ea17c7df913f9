import Kestrel.Eval.Evaluator
import Kestrel.Syntax.Parse

/-!
# Executing statements

A statement ends with a signal or an error. An error that leaves a statement gets the statement's
line unless it has one, and a loop exit that left a called function becomes a signal of the
statement around the call.
-/

namespace Kestrel

open Eval

/-- The value that an assignment writes: a compound one combines it with the current value. -/
def assignedValue (operator : AssignOperator) (current : Eval Value) (value : Value) :
    Eval Value := do
  match operator.binary? with
  | none => return value
  | some binary =>
    let old ← current
    applyBinary binary old value

/-- Writes to an index of an array or a dictionary. -/
def assignIndex (object index value : Value) : Eval Unit :=
  match object with
  | .array ref => do
    let place ← viewOrFail fun store => do
      resolveIndex (← numericIndex index) (store.get ref).size
    modifyCell ref fun (items : Array Value) => items.setIfInBounds place value
  | .dictionary ref => do
    let key ← view fun store => index.display store
    modifyCell ref fun (entries : OrderedMap Value) => entries.insert key value
  | other => fail (.noIndexAssignment other.typeName)

/-- Writes to a declared property of an object, or to an entry of a dictionary. -/
def assignMember (object : Value) (name : String) (value : Value) : Eval Unit :=
  match object with
  | .object ref => do
    let template ← view fun store => store.get (store.get ref).template
    if name ∈ template.properties then
      modifyCell ref fun (target : Instance) =>
        { target with fields := target.fields.insert name value }
    else fail (.noProperty template.name name)
  | .dictionary ref =>
    modifyCell ref fun (entries : OrderedMap Value) => entries.insert name value
  | other => fail (.noPropertyAssignment name other.typeName)

/-- An assignment. What the target is made of is evaluated before the value. -/
def executeAssignment (evaluator : Evaluator) (scope : Scope) (target : Expression)
    (operator : AssignOperator) (value : Expression) : Eval Unit := do
  match target.form with
  | .identifier name =>
    let value ← evaluator.expression scope value
    let value ← assignedValue operator (viewOrFail fun store => scope.lookup store name) value
    assignName scope name value
  | .index object index =>
    let object ← evaluator.expression scope object
    let index ← evaluator.expression scope index
    let value ← evaluator.expression scope value
    let value ← assignedValue operator (viewOrFail fun store => indexValue store object index) value
    assignIndex object index value
  | .member object property =>
    let object ← evaluator.expression scope object
    let value ← evaluator.expression scope value
    let value ← assignedValue operator (getProperty object property.name) value
    assignMember object property.name value
  | other => fail (.notAssignable other.tag)

/-- The branches of an `if`, tried in order, and what is done if none applies. -/
def executeBranches (evaluator : Evaluator) (scope : Scope) (otherwise : Option Block) :
    List Branch → Eval Signal
  | [] =>
    match otherwise with
    | some block => executeScoped evaluator scope block
    | none => pure (.value .nothing)
  | branch :: others => do
    let condition ← evaluator.expression scope branch.condition
    if ← lift condition.toBool then executeScoped evaluator scope branch.body
    else executeBranches evaluator scope otherwise others

/-- A loop that only its body can end, for so many rounds. -/
def executeLoop (evaluator : Evaluator) (scope : Scope) (body : Block) : Nat → Eval Signal
  | 0 => halt .outOfSteps
  | rounds + 1 => do
    match ← executeScoped evaluator scope body with
    | .exit .breaking => return .value .nothing
    | .returned value => return .returned value
    | .value _ | .exit .continuing => executeLoop evaluator scope body rounds

/-- The entries that a loop goes through, with their keys. -/
def iterationEntries (store : Store) : Value → Except Cause (List (Value × Value))
  | .array ref =>
    .ok ((store.get ref).toList.zipIdx.map fun item => (.count item.2, item.1))
  | .dictionary ref =>
    .ok ((store.get ref).entries.map fun entry => (.string entry.1, entry.2))
  | .text text =>
    .ok ((text.content store).toList.zipIdx.map fun item =>
      (.count item.2, .string (String.ofList [item.1])))
  | other => .error (.notIterable other.typeName)

/-- The scope of one round of a loop over entries. -/
def iterationScope (scope : Scope) (index : Option Identifier) (item : Identifier)
    (entry : Value × Value) : Eval Scope := do
  let inner ← newScope scope
  match index with
  | some index => bindName inner index.name entry.1
  | none => pure ()
  bindName inner item.name entry.2
  return inner

/-- A loop over entries that were collected before it started. -/
def executeRounds (evaluator : Evaluator) (scope : Scope) (index : Option Identifier)
    (item : Identifier) (body : Block) : List (Value × Value) → Eval Signal
  | [] => pure (.value .nothing)
  | entry :: others => do
    let inner ← iterationScope scope index item entry
    match ← evaluator.block inner body.statements with
    | .exit .breaking => return .value .nothing
    | .returned value => return .returned value
    | .value _ | .exit .continuing => executeRounds evaluator scope index item body others

/-- The first name of a list that occurs again before it. -/
def firstRepeated (seen : List String) : List String → Option String
  | [] => none
  | name :: others => if name ∈ seen then some name else firstRepeated (seen ++ [name]) others

/-- A struct declaration. -/
def executeStruct (scope : Scope) (declaration : StructDeclaration) : Eval Unit := do
  let properties := declaration.properties.map Identifier.name
  match firstRepeated [] properties with
  | some property => fail (.duplicateProperty property declaration.name.name)
  | none =>
    let ref ← newCell .struct ⟨declaration.name.name, properties, .empty⟩
    declareName scope declaration.name.name (.struct ref)

/-- A declaration of a method for a struct that is there. -/
def executeMethod (scope : Scope) (structName : Identifier) (function : FunctionDeclaration) :
    Eval Unit := do
  match ← viewOrFail fun store => scope.lookup store structName.name with
  | .struct ref =>
    let template ← view fun store => store.get ref
    if template.methods.contains function.name.name then
      fail (.duplicateMethod template.name function.name.name)
    else
      let closure := makeClosure scope (some function.name.name) function.parameters function.body
        (some template.name)
      let method ← newCell .function closure
      modifyCell ref fun (target : StructTemplate) =>
        { target with methods := target.methods.insert function.name.name method }
  | other => fail (.methodOfNoStruct structName.name other.typeName)

/-- The catch block, if there is one, for an interrupt that left the body; other ends stay. -/
def catchError (evaluator : Evaluator) (scope : Scope) (catchBlock : Option Block)
    (body : Eval Signal) : Eval Signal := fun state =>
  match body state, catchBlock with
  | .interrupted interrupt state, some block =>
    (do
      let inner ← newScope scope
      bindName inner "error" (.error interrupt.asError.kind interrupt.asError.message)
      evaluator.block inner block.statements : Eval Signal) state
  | outcome, _ => outcome

/-- The finally block, if there is one, after a body. If it ends normally, the end of the body is
the end of the whole, and otherwise its own. -/
def finallyDo (evaluator : Evaluator) (scope : Scope) (finallyBlock : Option Block)
    (body : Eval Signal) : Eval Signal := fun state =>
  match finallyBlock with
  | none => body state
  | some block =>
    match body state with
    | .halted reason => .halted reason
    | .value pending state =>
      match executeScoped evaluator scope block state with
      | .value (.value _) state => .value pending state
      | outcome => outcome
    | .interrupted pending state =>
      match executeScoped evaluator scope block state with
      | .value (.value _) state => .interrupted pending state
      | outcome => outcome

/-- A `try` statement. -/
def executeAttempt (evaluator : Evaluator) (scope : Scope) (body : Block)
    (catchBlock finallyBlock : Option Block) : Eval Signal :=
  finallyDo evaluator scope finallyBlock
    (catchError evaluator scope catchBlock (executeScoped evaluator scope body))

/-- A value that a library offers; functions are new. -/
def libraryValue : LibraryMember → Eval Value
  | .number x => pure (.number x)
  | .text content => pure (.string content)
  | .function builtin => do return .native (← newCell .native (.builtin builtin))

/-- The members of a library as values. -/
def libraryMembers (members : OrderedMap Value) :
    List (String × LibraryMember) → Eval (OrderedMap Value)
  | [] => pure members
  | (name, member) :: others => do
    let value ← libraryValue member
    libraryMembers (members.insert name value) others

/-- Binds an alias to what a library offers. -/
def importLibrary (scope : Scope) (library : Library) (name : String) : Eval Unit := do
  match ← lift (library.content name) with
  | .single member =>
    let value ← libraryValue member
    bindName scope name value
  | .members list =>
    let members ← libraryMembers .empty list
    bindName scope name (.exports (← newCell .exports ⟨name, members⟩))

/-- The value of a program that ends with a signal. A loop exit has no loop to leave. -/
def programValue : Signal → Eval Value
  | .value v => pure v
  | .returned v => pure v
  | .exit e => fail (.loopExitOutside e)

/-- The statements of a program in the scope of a module. -/
def executeProgram (evaluator : Evaluator) (scope : Scope) (statements : List Statement) :
    Eval Value := do
  programValue (← evaluator.block scope statements)

/-- Finds the module that an import asks for. -/
def loadModule (loader : Loader) (path importer : String) : Eval ModuleSource :=
  match loader.load path importer with
  | .module source => pure source
  | .refused reason => fail (.importFailed path reason)
  | .awaiting file => halt (.awaitingFile file)

/-- Notes that a scope's module imports another one. -/
def recordImport (scope : Scope) (target : String) : Eval Unit := do
  let graph ← viewOrFail fun store =>
    ImportGraph.record (store.get scope.imports) target scope.module
  modifyCell scope.imports fun _ => graph

/-- The import of a module: its program is run in a scope of its own, whose names the alias then
offers. -/
def importModule (host : Host) (evaluator : Evaluator) (scope : Scope) (path name : String) :
    Eval Unit := do
  let source ← loadModule host.loader path scope.module
  recordImport scope source.key
  match parseProgram source.source (some source.key) with
  | .error error => fail (.importFailed source.key error.message)
  | .ok program =>
    let inner ← allocate fun store => Scope.ofModule store source.key scope.imports
    let _ ← executeProgram evaluator inner program.statements
    let members ← view inner.bindings
    bindName scope name (.exports (← newCell .exports ⟨name, members⟩))

/-- An import: of a native library, or else of a module. -/
def executeImport (host : Host) (evaluator : Evaluator) (scope : Scope)
    (declaration : ImportDeclaration) : Eval Unit :=
  match host.libraries.find? fun library => library.name = declaration.path with
  | some library => importLibrary scope library declaration.bindingName
  | none => importModule host evaluator scope declaration.path declaration.bindingName

/-- What a statement of each kind does. -/
def executeForm (host : Host) (evaluator : Evaluator) (scope : Scope) (form : StatementForm) :
    Eval Signal := do
  match form with
  | .var name value _ =>
    let value ← evaluator.expression scope value
    declareName scope name.name value
    return .value .nothing
  | .assignment target operator value _ =>
    executeAssignment evaluator scope target operator value
    return .value .nothing
  | .expression value => return .value (← evaluator.expression scope value)
  | .conditional branches otherwise _ => executeBranches evaluator scope otherwise branches
  | .loop body _ => executeLoop evaluator scope body evaluator.rounds
  | .forEach index item iterable body _ =>
    let iterable ← evaluator.expression scope iterable
    let entries ← viewOrFail fun store => iterationEntries store iterable
    executeRounds evaluator scope index item body entries
  | .function declaration =>
    let closure := makeClosure scope (some declaration.name.name) declaration.parameters
      declaration.body none
    declareName scope declaration.name.name (.function (← newCell .function closure))
    return .value .nothing
  | .struct declaration =>
    executeStruct scope declaration
    return .value .nothing
  | .method structName function _ =>
    executeMethod scope structName function
    return .value .nothing
  | .attempt body catchBlock finallyBlock _ =>
    executeAttempt evaluator scope body catchBlock finallyBlock
  | .returning none => return .returned .nothing
  | .returning (some value) => return .returned (← evaluator.expression scope value)
  | .breaking => return .exit .breaking
  | .continuing => return .exit .continuing
  | .importing declaration =>
    executeImport host evaluator scope declaration
    return .value .nothing

/-- Gives an error the line of the statement that it leaves, and turns a loop exit that left a call
into a signal. -/
def settle (scope : Scope) (line : Nat) (body : Eval Signal) : Eval Signal := fun state =>
  match body state with
  | .interrupted (.error error) state =>
    .interrupted (.error (error.locate ⟨scope.module, line⟩ state.calls.frames)) state
  | .interrupted (.loopExit exit) state => .value (.exit exit) state
  | outcome => outcome

/-- Executes a statement. -/
def executeStatement (host : Host) (evaluator : Evaluator) (scope : Scope)
    (statement : Statement) : Eval Signal :=
  settle scope statement.line (executeForm host evaluator scope statement.form)

/-- The evaluator that may go so many constructs deep and repeat a loop so many times. -/
def Evaluator.ofSteps (host : Host) : Nat → Evaluator
  | 0 =>
    ⟨fun _ _ => halt .outOfSteps, fun _ _ => halt .outOfSteps, fun _ _ => halt .outOfSteps, 0⟩
  | steps + 1 =>
    { expression := fun scope expression =>
        evaluateExpression host (Evaluator.ofSteps host steps) scope expression
      statement := fun scope statement =>
        executeStatement host (Evaluator.ofSteps host steps) scope statement
      block := fun scope statements =>
        executeBlock (Evaluator.ofSteps host steps) scope statements
      rounds := steps }

end Kestrel
