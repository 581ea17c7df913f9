import Kestrel.Eval.Property
import Kestrel.Module.Library
import Kestrel.Native.Call

/-!
# Evaluating expressions

Expressions contain expressions and, through calls, statements, and statements contain both. Each
construct is evaluated with the help of an evaluator for what it contains; the evaluator of
everything is made from these in the module on statements.
-/

namespace Kestrel

open Eval

/-- What statements do besides failing. -/
inductive Signal where
  /-- The statement ended, with a value. -/
  | value (value : Value)
  /-- The function around the statement ends, with a value. -/
  | returned (value : Value)
  /-- The loop around the statement is left early. -/
  | exit (exit : LoopExit)
  deriving Repr

/-- The surroundings of a program. -/
structure Host where
  /-- Whether the second operand of `and` and `or` is evaluated only if it matters. -/
  shortCircuit : Bool
  loader : Loader
  /-- The native libraries; of two with one name the first one counts. -/
  libraries : List Library

/-- How expressions, statements and blocks inside a construct are evaluated. -/
structure Evaluator where
  expression : Scope → Expression → Eval Value
  statement : Scope → Statement → Eval Signal
  /-- The statements of a block, in a scope that is there for them. -/
  block : Scope → List Statement → Eval Signal
  /-- How often a loop may repeat its body. -/
  rounds : Nat

/-- Several statements in a row, up to one that ends more than itself. The value of the row is the
value of its last statement; `last` is the value so far. -/
def executeRow (evaluator : Evaluator) (scope : Scope) (last : Value) :
    List Statement → Eval Signal
  | [] => pure (.value last)
  | statement :: others => do
    match ← evaluator.statement scope statement with
    | .value value => executeRow evaluator scope value others
    | signal => return signal

/-- The statements of a block, in a scope that is there for them. -/
def executeBlock (evaluator : Evaluator) (scope : Scope) (statements : List Statement) :
    Eval Signal :=
  executeRow evaluator scope .nothing statements

/-- The statements of a block in a new scope. -/
def executeScoped (evaluator : Evaluator) (scope : Scope) (block : Block) : Eval Signal := do
  evaluator.block (← newScope scope) block.statements

/-- Gives arguments to parameters: a missing argument is nothing, and one too many is dropped. -/
def bindParameters (scope : Scope) : List String → List Value → Eval Unit
  | [], _ => pure ()
  | parameter :: parameters, [] => do
    bindName scope parameter .nothing
    bindParameters scope parameters []
  | parameter :: parameters, argument :: arguments => do
    bindName scope parameter argument
    bindParameters scope parameters arguments

/-- The scope that a function's body runs in. -/
def callScope (closure : Closure) (arguments : List Value) : Eval Scope := do
  let scope ← newScope closure.scope
  bindParameters scope closure.parameters arguments
  match closure.receiver? with
  | none => return scope
  | some object =>
    bindName scope "this" (.object object)
    return scope

/-- A call of a function of the program from a line of a module. -/
def callFunction (evaluator : Evaluator) (ref : Ref .function) (arguments : List Value)
    (module : String) (line : Nat) : Eval Value := do
  let closure ← view fun store => store.get ref
  let scope ← callScope closure arguments
  let signal ← withFrame ⟨closure.displayName, module, line⟩
    (evaluator.block scope closure.body.statements)
  match signal with
  | .returned value => return value
  | .value _ => return .nothing
  | .exit exit => exitLoop exit

/-- A call of any value from a line of a module. -/
def callValue (evaluator : Evaluator) (callee : Value) (arguments : List Value)
    (module : String) (line : Nat) : Eval Value :=
  match callee with
  | .native ref => callNative ref arguments
  | .function ref => callFunction evaluator ref arguments module line
  | other => fail (.notCallable other.typeName)

/-- The entries of a dictionary literal, evaluated in order. -/
def evaluateEntries (evaluator : Evaluator) (scope : Scope) (entries : OrderedMap Value) :
    List DictionaryEntry → Eval (OrderedMap Value)
  | [] => pure entries
  | entry :: others => do
    let value ← evaluator.expression scope entry.value
    evaluateEntries evaluator scope (entries.insert entry.key value) others

/-- The fields of a struct literal, evaluated in order. A field must be declared before its value
is looked at. -/
def evaluateFields (evaluator : Evaluator) (scope : Scope) (template : StructTemplate)
    (fields : OrderedMap Value) : List StructField → Eval (OrderedMap Value)
  | [] => pure fields
  | field :: others => do
    if field.name.name ∈ template.properties then
      let value ← evaluator.expression scope field.value
      evaluateFields evaluator scope template (fields.insert field.name.name value) others
    else fail (.noProperty template.name field.name.name)

/-- The fields of an object of which none is set. -/
def StructTemplate.blankFields (template : StructTemplate) : OrderedMap Value :=
  .ofList (template.properties.map fun property => (property, .nothing))

/-- A struct literal: every property exists, and those that are not given are nothing. -/
def evaluateStructLiteral (evaluator : Evaluator) (scope : Scope) (target : Expression)
    (fields : List StructField) : Eval Value := do
  match ← evaluator.expression scope target with
  | .struct ref =>
    let template ← view fun store => store.get ref
    let fields ← evaluateFields evaluator scope template template.blankFields fields
    return .object (← newCell .object ⟨ref, fields⟩)
  | other => fail (.literalOfNoStruct other.typeName)

/-- An operator between two operands. With short circuit, a logical operator looks at its right
operand only if the left one does not decide. -/
def evaluateBinary (host : Host) (evaluator : Evaluator) (scope : Scope) (left : Expression)
    (operator : BinaryOperator) (right : Expression) : Eval Value := do
  let leftValue ← evaluator.expression scope left
  match host.shortCircuit, operator with
  | true, .and =>
    if ← lift leftValue.toBool then
      return .bool (← lift (← evaluator.expression scope right).toBool)
    else return .bool false
  | true, .or =>
    if ← lift leftValue.toBool then return .bool true
    else return .bool (← lift (← evaluator.expression scope right).toBool)
  | _, _ =>
    let rightValue ← evaluator.expression scope right
    applyBinary operator leftValue rightValue

/-- The bounds of a slice as arguments. A missing start is zero, and a missing end is left out. -/
def evaluateBounds (evaluator : Evaluator) (scope : Scope) :
    Option Expression → Option Expression → Eval (List Value)
  | none, none => return [.number 0]
  | none, some stop => return [.number 0, ← evaluator.expression scope stop]
  | some start, none => return [← evaluator.expression scope start]
  | some start, some stop =>
    return [← evaluator.expression scope start, ← evaluator.expression scope stop]

/-- A slice calls the method `slice`. -/
def evaluateSlice (evaluator : Evaluator) (scope : Scope) (object : Expression)
    (start stop : Option Expression) (line : Nat) : Eval Value := do
  let object ← evaluator.expression scope object
  let arguments ← evaluateBounds evaluator scope start stop
  let method ← getProperty object "slice"
  callValue evaluator method arguments scope.module line

/-- A function of the program with the scope that it is made in. -/
def makeClosure (scope : Scope) (name? : Option String) (parameters : List Identifier)
    (body : Block) (owner? : Option String) : Closure :=
  ⟨name?, parameters.map Identifier.name, body, scope, owner?, none⟩

/-- Evaluates an expression. -/
def evaluateExpression (host : Host) (evaluator : Evaluator) (scope : Scope)
    (expression : Expression) : Eval Value := do
  match expression.form with
  | .number value => return .number value
  | .string value => return .string value
  | .boolean value => return .bool value
  | .nothing => return .nothing
  | .identifier name => viewOrFail fun store => scope.lookup store name
  | .array elements =>
    let values ← elements.mapM (evaluator.expression scope)
    newArray values
  | .dictionary entries =>
    let entries ← evaluateEntries evaluator scope .empty entries
    return .dictionary (← newCell .dictionary entries)
  | .structLiteral target fields => evaluateStructLiteral evaluator scope target fields
  | .function parameters body =>
    return .function (← newCell .function (makeClosure scope none parameters body none))
  | .binary left operator right => evaluateBinary host evaluator scope left operator right
  | .unary operator operand =>
    let value ← evaluator.expression scope operand
    lift (applyUnary operator value)
  | .ternary condition thenValue elseValue =>
    let condition ← evaluator.expression scope condition
    if ← lift condition.toBool then evaluator.expression scope thenValue
    else evaluator.expression scope elseValue
  | .call callee arguments =>
    let arguments ← arguments.mapM (evaluator.expression scope)
    let callee ← evaluator.expression scope callee
    callValue evaluator callee arguments scope.module expression.line
  | .member object property =>
    let object ← evaluator.expression scope object
    getProperty object property.name
  | .index object index =>
    let object ← evaluator.expression scope object
    let index ← evaluator.expression scope index
    viewOrFail fun store => indexValue store object index
  | .slice object start stop =>
    evaluateSlice evaluator scope object start stop expression.line

end Kestrel
