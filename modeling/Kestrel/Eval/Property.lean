import Kestrel.Eval.Basic

/-!
# Properties

What the name after a dot stands for. Fields and entries are read, and methods are bound to the
value in front of the dot.
-/

namespace Kestrel

open Eval

/-- How an error names the value that lacks a property. -/
def propertyOwner (store : Store) : Value → String
  | .struct ref => (store.get ref).name
  | .object ref => (store.get (store.get ref).template).name
  | .exports ref => "module '" ++ (store.get ref).name ++ "'"
  | other => other.typeName

/-- What a property is before it is made a value. -/
inductive Property where
  | value (value : Value)
  /-- A native method, bound to its receiver. -/
  | native (method : Native)
  /-- A method of a struct, to be bound to an object. -/
  | method (function : Ref .function) (object : Ref .object)

/-- The property of a value under a name. Fields come before methods, native methods before
entries, and a struct's methods before its name. -/
def property? (store : Store) (value : Value) (name : String) : Option Property :=
  match value with
  | .number x => (NumberMethod.ofName? name).map fun method => .native (.ofNumber x method)
  | .text text => (TextMethod.ofName? text name).map fun method => .native (.ofText text method)
  | .array ref => (ArrayMethod.ofName? name).map fun method => .native (.ofArray ref method)
  | .dictionary ref =>
    match DictionaryMethod.ofName? name with
    | some method => some (.native (.ofDictionary ref method))
    | none => ((store.get ref).get? name).map .value
  | .error kind message =>
    if name = "message" then some (.value (.string message))
    else if name = "kind" then some (.value (.string kind.name))
    else none
  | .struct ref =>
    match (store.get ref).methods.get? name with
    | some function => some (.value (.function function))
    | none => if name = "name" then some (.value (.string (store.get ref).name)) else none
  | .object ref =>
    match (store.get ref).fields.get? name with
    | some field => some (.value field)
    | none =>
      ((store.get (store.get ref).template).methods.get? name).map fun function =>
        .method function ref
  | .exports ref => ((store.get ref).members.get? name).map .value
  | .bool _ | .nothing | .function _ | .native _ => none

/-- A property as a value: a bound method is a new function. -/
def Property.toValue : Property → Eval Value
  | .value v => pure v
  | .native m => do return .native (← newCell .native m)
  | .method function object => do
    let closure ← view fun store => store.get function
    return .function (← newCell .function { closure with receiver? := some object })

/-- The property of a value under a name. -/
def getProperty (value : Value) (name : String) : Eval Value := do
  let property ← viewOrFail fun store =>
    match property? store value name with
    | some property => .ok property
    | none => .error (.noProperty (propertyOwner store value) name)
  property.toValue

end Kestrel
