import Kestrel.Eval.Operator
import Kestrel.Native.Argument
import Kestrel.Text.Case
import Kestrel.Text.Search

/-!
# Calling native functions

What each built-in function and method does. A method that changes its receiver changes the cell
that the receiver refers to. A native that gives an error value fails with that error.
-/

namespace Kestrel

open Eval

/-- A method of a number. -/
def callNumberMethod (receiver : Float) : NumberMethod → Value
  | .toString => .string (numberText receiver)
  | .floor => .number (roundDown receiver)
  | .ceil => .number (roundUp receiver)
  | .round => .number (roundNearest receiver)
  | .abs => .number (magnitude receiver)

/-- The fill that widens a text to the width asked for: its first character, repeated. -/
def paddingOf (args : Arguments) (store : Store) (length : Nat) : Except Cause (List Char) := do
  let width ← args.number 0
  let fill := (← args.text? store 1).getD " "
  match fill.toList with
  | [] => .error (.emptyFill args.callee)
  | c :: _ =>
    let width ← args.elementCount width
    return List.replicate (width - length) c

/-- A method of a text that gives a text, a number or a truth value. -/
def textResult (receiver : TextValue) (method : TextMethod) (args : Arguments) (store : Store) :
    Except Cause Value := do
  let content := receiver.content store
  match method with
  | .len => return .count content.length
  | .upper => return .string (upperText content)
  | .lower => return .string (lowerText content)
  | .trim => return .string (String.ofList (trimmed content.toList))
  | .contains =>
    let needle ← args.text store 0
    return .bool (findText needle.toList content.toList).isSome
  | .find =>
    let needle ← args.text store 0
    match findText needle.toList content.toList with
    | some place => return .count place
    | none => return .number (-1)
  | .slice =>
    let start ← args.number 0
    let stop ← args.number? 1
    let (start, stop) := sliceRange start stop content.length
    return .string (String.ofList ((content.toList.take stop).drop start))
  | .padLeft =>
    let padding ← paddingOf args store content.length
    return .string (String.ofList (padding ++ content.toList))
  | .padRight =>
    let padding ← paddingOf args store content.length
    return .string (String.ofList (content.toList ++ padding))
  | .toNumber => return .number (← (Value.text receiver).toNumber store)
  | .split | .mutable | .append => return .text receiver

/-- A method of a text. Parts and growing texts are new cells. -/
def callTextMethod (receiver : TextValue) (method : TextMethod) (args : Arguments) :
    Eval Value := do
  match method with
  | .split =>
    let parts ← viewOrFail fun store => do
      let separator ← args.text store 0
      return splitText separator.toList (receiver.content store).toList
    newArray (parts.map fun part => .string (String.ofList part))
  | .mutable =>
    let content ← view receiver.content
    return .text (.buffer (← newCell .buffer content))
  | .append =>
    let suffix ← viewOrFail fun store => args.display store 0
    match receiver with
    | .buffer ref =>
      modifyCell ref fun (content : String) => content ++ suffix
      return .text receiver
    | .fixed _ => return .text receiver
  | _ => viewOrFail (textResult receiver method args)

/-- The first place in a list of values that holds a value equal to `needle`. -/
def findValue (store : Store) (needle : Value) (items : List Value) : Option Nat :=
  items.findIdx? fun item => item.equals store needle

/-- The place at which to insert into an array; the length, as a number, is one of them. -/
def insertionPlace (index : Float) (length : Nat) : Except Cause Nat :=
  if IndexNumber.ofFloat index = .at (Binary.nearest length) then .ok length
  else resolveIndex index length

/-- A method of an array. -/
def callArrayMethod (receiver : Ref .array) (method : ArrayMethod) (args : Arguments) :
    Eval Value := do
  match method with
  | .len => return .count (← view fun store => (store.get receiver).size)
  | .add =>
    modifyCell receiver fun (items : Array Value) => items ++ args.values.toArray
    return .array receiver
  | .insert =>
    let (place, value) ← viewOrFail fun store => do
      let index ← args.number 0
      let value ← args.required 1
      return (← insertionPlace index (store.get receiver).size, value)
    modifyCell receiver fun (items : Array Value) => items.insertIdxIfInBounds place value
    return .array receiver
  | .remove =>
    let (place, value) ← viewOrFail fun store => do
      let index ← args.number 0
      let items := store.get receiver
      let place ← resolveIndex index items.size
      return (place, items[place]?.getD .nothing)
    modifyCell receiver fun (items : Array Value) => items.eraseIdxIfInBounds place
    return value
  | .pop =>
    let value ← viewOrFail fun store =>
      match (store.get receiver).back? with
      | some value => .ok value
      | none => .error .popFromEmpty
    modifyCell receiver fun (items : Array Value) => items.pop
    return value
  | .has => viewOrFail fun store => do
      let needle ← args.required 0
      return .bool (findValue store needle (store.get receiver).toList).isSome
  | .find => viewOrFail fun store => do
      let needle ← args.required 0
      match findValue store needle (store.get receiver).toList with
      | some place => return .count place
      | none => return .number (-1)
  | .slice =>
    let items ← viewOrFail fun store => do
      let start ← args.number 0
      let stop ← args.number? 1
      let items := store.get receiver
      let (start, stop) := sliceRange start stop items.size
      return (items.toList.take stop).drop start
    newArray items
  | .join => viewOrFail fun store => do
      let separator := (← args.text? store 0).getD ""
      let items := (store.get receiver).toList
      return .string (separator.intercalate (items.map (Value.display store)))
  | .reverse =>
    modifyCell receiver fun (items : Array Value) => items.reverse
    return .array receiver
  | .copy =>
    let items ← view fun store => (store.get receiver).toList
    newArray items

/-- A method of a dictionary. Every key is turned to text. -/
def callDictionaryMethod (receiver : Ref .dictionary) (method : DictionaryMethod)
    (args : Arguments) : Eval Value := do
  match method with
  | .len => return .count (← view fun store => (store.get receiver).size)
  | .add =>
    let (key, value) ← viewOrFail fun store => do
      return (← args.display store 0, ← args.required 1)
    modifyCell receiver fun (entries : OrderedMap Value) => entries.insert key value
    return .dictionary receiver
  | .remove =>
    let (key, value) ← viewOrFail fun store => do
      let key ← args.display store 0
      match (store.get receiver).get? key with
      | some value => return (key, value)
      | none => .error (.missingKey key)
    modifyCell receiver fun (entries : OrderedMap Value) => entries.erase key
    return value
  | .has => viewOrFail fun store => do
      let key ← args.display store 0
      return .bool ((store.get receiver).contains key)
  | .keys =>
    let keys ← view fun store => (store.get receiver).keys
    newArray (keys.map .string)
  | .values =>
    let values ← view fun store => (store.get receiver).values
    newArray values
  | .get => viewOrFail fun store => do
      let key ← args.display store 0
      match (store.get receiver).get? key with
      | some value => return value
      | none => return args.values[1]?.getD .nothing

/-- Prints a line; its end is a piece of its own. -/
def printPieces (callee : String) (pieces : List String) : Eval Value := do
  for piece in pieces do
    Eval.print piece (.outputFailed callee "output closed")
  return .nothing

/-- The numbers from `start` on, one apart. -/
def countFrom (start : Float) (count : Nat) : List Value :=
  (List.range count).map fun offset => .number (start + Float.ofNat offset)

/-- The numbers of a range: up to an end, or from a start to an end. -/
def rangeOf (args : Arguments) : Except Cause (List Value) := do
  let (start, stop) ← match ← args.number? 1 with
    | some stop => pure (← args.number 0, stop)
    | none => pure (0, ← args.number 0)
  let count ← args.elementCount (roundUp (stop - start))
  return countFrom start count

/-- All arguments as numbers, combined from the left. -/
def foldNumbers (args : Arguments) (combine : Float → Float → Float) : Except Cause Value := do
  args.atLeast 1
  let numbers ← (List.range args.values.length).mapM args.number
  match numbers with
  | [] => return .nothing
  | first :: others => return .number (others.foldl combine first)

/-- The error value that a program asks for. -/
def makeError (args : Arguments) (store : Store) : Except Cause Value := do
  let message ← args.display store 0
  match ← args.text? store 1 with
  | none => return .error .runtime message
  | some name =>
    match ErrorKind.ofName? name with
    | some kind => return .error kind message
    | none => .error (.unknownErrorKind name)

/-- Fails with a message unless a condition holds. -/
def checkAssertion (args : Arguments) (store : Store) : Except Cause Value := do
  let condition ← args.required 0
  if ← condition.toBool then return .nothing
  else
    let message := match args.optional? 1 with
      | some value => value.display store
      | none => "assertion failed"
    .error (.assertionFailed message)

/-- A built-in function. -/
def callBuiltin (function : Builtin) (args : Arguments) : Eval Value := do
  match function with
  | .print | .println =>
    let texts ← view fun store => args.values.map (Value.display store)
    let line := " ".intercalate texts
    printPieces function.name (if function = .println then [line, "\n"] else [line])
  | .type => viewOrFail fun _ => do return .string (← args.required 0).typeName
  | .string => viewOrFail fun store => do return .string (← args.display store 0)
  | .number => viewOrFail fun store => do return .number (← (← args.required 0).toNumber store)
  | .error => viewOrFail (makeError args)
  | .range => newArray (← lift (rangeOf args))
  | .assert => viewOrFail (checkAssertion args)
  | .sqrt => viewOrFail fun _ => do return .number (← args.number 0).sqrt
  | .pow => viewOrFail fun _ => do return .number ((← args.number 0).pow (← args.number 1))
  | .floor => viewOrFail fun _ => do return .number (roundDown (← args.number 0))
  | .ceil => viewOrFail fun _ => do return .number (roundUp (← args.number 0))
  | .abs => viewOrFail fun _ => do return .number (magnitude (← args.number 0))
  | .min => viewOrFail fun _ => foldNumbers args lesser
  | .max => viewOrFail fun _ => foldNumbers args greater

/-- A native function with its arguments. -/
def runNative (native : Native) (values : List Value) : Eval Value :=
  let args : Arguments := ⟨native.name, values⟩
  match native with
  | .builtin function => callBuiltin function args
  | .ofNumber receiver method => pure (callNumberMethod receiver method)
  | .ofText receiver method => callTextMethod receiver method args
  | .ofArray receiver method => callArrayMethod receiver method args
  | .ofDictionary receiver method => callDictionaryMethod receiver method args

/-- A call of a native function: an error value that it gives is raised. -/
def callNative (ref : Ref .native) (values : List Value) : Eval Value := do
  let native ← view fun store => store.get ref
  match ← runNative native values with
  | .error kind message => fail (.raised kind message)
  | value => return value

end Kestrel
