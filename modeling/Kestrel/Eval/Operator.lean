import Kestrel.Eval.Basic
import Kestrel.Number.Index
import Kestrel.Value.Conversion
import Kestrel.Value.Equality

/-!
# Operators on values

Arithmetic and comparison need two values of one suitable type. Equality is defined on all values,
and the logical operators on all that have a truth value.
-/

namespace Kestrel

/-- The failure of an operator on values of unsuitable types. -/
def operandMismatch (operator : BinaryOperator) (left right : Value) : Cause :=
  .operandTypes operator left.typeName right.typeName

/-- Arithmetic on two numbers. -/
def arithmetic (operator : BinaryOperator) (x y : Float) : Except Cause Float :=
  match operator with
  | .add => .ok (x + y)
  | .subtract => .ok (x - y)
  | .multiply => .ok (x * y)
  | .divide => if y == 0 then .error .divisionByZero else .ok (x / y)
  | .modulo => if y == 0 then .error .divisionByZero else .ok (remainder x y)
  | _ => .error (.operandTypes operator "Number" "Number")

/-- The comparison of two numbers; nothing holds of one that is not a number. -/
def compareNumbers (operator : BinaryOperator) (x y : Float) : Bool :=
  match operator with
  | .less => x < y
  | .lessEqual => x ≤ y
  | .greater => y < x
  | .greaterEqual => y ≤ x
  | _ => false

/-- The comparison of two texts, character by character. -/
def compareTexts (operator : BinaryOperator) (x y : String) : Bool :=
  match operator with
  | .less => x < y
  | .lessEqual => !(y < x)
  | .greater => y < x
  | .greaterEqual => !(x < y)
  | _ => false

/-- An operator on two values, apart from the sum of two arrays. -/
def operate (store : Store) (operator : BinaryOperator) (left right : Value) :
    Except Cause Value :=
  match operator with
  | .equal => .ok (.bool (left.equals store right))
  | .notEqual => .ok (.bool !(left.equals store right))
  | .and => do
    if ← left.toBool then return .bool (← right.toBool) else return .bool false
  | .or => do
    if ← left.toBool then return .bool true else return .bool (← right.toBool)
  | .add =>
    match left, right with
    | .number x, .number y => (arithmetic .add x y).map .number
    | .text x, .text y => .ok (.string (x.content store ++ y.content store))
    | _, _ => .error (operandMismatch operator left right)
  | .subtract | .multiply | .divide | .modulo =>
    match left, right with
    | .number x, .number y => (arithmetic operator x y).map .number
    | _, _ => .error (operandMismatch operator left right)
  | .less | .lessEqual | .greater | .greaterEqual =>
    match left, right with
    | .number x, .number y => .ok (.bool (compareNumbers operator x y))
    | .text x, .text y => .ok (.bool (compareTexts operator (x.content store) (y.content store)))
    | _, _ => .error (operandMismatch operator left right)

/-- An operator on two values. The sum of two arrays is a new array. -/
def applyBinary (operator : BinaryOperator) (left right : Value) : Eval Value :=
  match operator, left, right with
  | .add, .array x, .array y => do
    let joined ← Eval.view fun store => (store.get x).toList ++ (store.get y).toList
    Eval.newArray joined
  | _, _, _ => Eval.viewOrFail fun store => operate store operator left right

/-- An operator on one value. -/
def applyUnary (operator : UnaryOperator) (operand : Value) : Except Cause Value :=
  match operator with
  | .negate =>
    match operand with
    | .number x => .ok (.number (-x))
    | other => .error (.operandType .negate other.typeName)
  | .not => do return .bool !(← operand.toBool)

/-- The number that an array or a text is indexed by. -/
def numericIndex : Value → Except Cause Float
  | .number x => .ok x
  | other => .error (.indexNotANumber other.typeName)

/-- What a value holds at an index. A dictionary is indexed by the text of the index. -/
def indexValue (store : Store) (object index : Value) : Except Cause Value :=
  match object with
  | .dictionary ref =>
    let key := index.display store
    match (store.get ref).get? key with
    | some value => .ok value
    | none => .error (.missingKey key)
  | .array ref => do
    let items := store.get ref
    let place ← resolveIndex (← numericIndex index) items.size
    return items[place]?.getD .nothing
  | .text text => do
    let content := (text.content store).toList
    let place ← resolveIndex (← numericIndex index) content.length
    return .string (String.ofList (content[place]?.toList))
  | other => .error (.notIndexable other.typeName)

end Kestrel
