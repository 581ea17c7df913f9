import Kestrel.Value.Display
import Kestrel.Fault.Cause

/-!
# Arguments of native functions

Natives take any number of arguments and look at those that they need. An optional argument that is
`nothing` counts as absent.
-/

namespace Kestrel

/-- The arguments of one call, with the name of what is called. -/
structure Arguments where
  callee : String
  values : List Value

namespace Arguments

/-- The most elements that a native makes at once. -/
def elementLimit : Nat := 16777216

/-- An argument that must be there. -/
def required (args : Arguments) (position : Nat) : Except Cause Value :=
  match args.values[position]? with
  | some value => .ok value
  | none => .error (.missingArgument args.callee position)

/-- An argument that may be left out. -/
def optional? (args : Arguments) (position : Nat) : Option Value :=
  match args.values[position]? with
  | some .nothing => none
  | other => other

/-- The failure of an argument of the wrong type. -/
def mismatch (args : Arguments) (position : Nat) (expected : String) (found : Value) : Cause :=
  .argumentType args.callee expected position found.typeName

/-- A number that must be there. -/
def number (args : Arguments) (position : Nat) : Except Cause Float := do
  match ← args.required position with
  | .number x => return x
  | other => .error (args.mismatch position "Number" other)

/-- A number that may be left out. -/
def number? (args : Arguments) (position : Nat) : Except Cause (Option Float) :=
  match args.optional? position with
  | none => .ok none
  | some (.number x) => .ok (some x)
  | some other => .error (args.mismatch position "Number" other)

/-- A text that must be there. -/
def text (args : Arguments) (store : Store) (position : Nat) : Except Cause String := do
  match ← args.required position with
  | .text text => return text.content store
  | other => .error (args.mismatch position "String" other)

/-- A text that may be left out. -/
def text? (args : Arguments) (store : Store) (position : Nat) :
    Except Cause (Option String) :=
  match args.optional? position with
  | none => .ok none
  | some (.text text) => .ok (some (text.content store))
  | some other => .error (args.mismatch position "String" other)

/-- The text of an argument of any type that must be there. -/
def display (args : Arguments) (store : Store) (position : Nat) : Except Cause String :=
  (args.required position).map (Value.display store)

/-- Fails unless there are at least so many arguments. -/
def atLeast (args : Arguments) (least : Nat) : Except Cause Unit :=
  if args.values.length < least then
    .error (.tooFewArguments args.callee least args.values.length)
  else .ok ()

/-- A number as a number of elements to make; less than none is none. -/
def elementCount (args : Arguments) (length : Float) : Except Cause Nat :=
  if length.isNaN || Float.ofNat elementLimit < length then
    .error (.tooManyElements args.callee elementLimit)
  else
    match Binary.ofFloat length with
    | .finite false mantissa exponent => .ok (Binary.whole mantissa exponent)
    | _ => .ok 0

end Arguments

end Kestrel
