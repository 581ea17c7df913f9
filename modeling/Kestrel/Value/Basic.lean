import Kestrel.Fault.Kind

/-!
# Values

Numbers, booleans, fixed text and errors are what they are. Everything that is shared or has an
identity lives in a cell of the store, and a value only refers to its cell.
-/

namespace Kestrel

/-- The kinds of cells in the store. -/
inductive CellKind where
  /-- The names of one scope. -/
  | scope
  | array
  | dictionary
  /-- Text that can be appended to. -/
  | buffer
  | struct
  | object
  | function
  | native
  | exports
  /-- Who imported whom. -/
  | imports
  deriving DecidableEq, Repr, Inhabited

/-- A reference to a cell of some kind. -/
structure Ref (kind : CellKind) where
  index : Nat
  deriving DecidableEq, Repr, Inhabited

/-- A text value: fixed, or shared and growing. -/
inductive TextValue where
  | fixed (text : String)
  | buffer (ref : Ref .buffer)
  deriving DecidableEq, Repr, Inhabited

/-- What an expression evaluates to. -/
inductive Value where
  | number (value : Float)
  | text (value : TextValue)
  | bool (value : Bool)
  | nothing
  | error (kind : ErrorKind) (message : String)
  | array (ref : Ref .array)
  | dictionary (ref : Ref .dictionary)
  | struct (ref : Ref .struct)
  | object (ref : Ref .object)
  | function (ref : Ref .function)
  | native (ref : Ref .native)
  | exports (ref : Ref .exports)
  deriving DecidableEq, Repr

instance : Inhabited Value := ⟨.nothing⟩

namespace Value

/-- A value of fixed text. -/
def string (text : String) : Value := .text (.fixed text)

/-- The number that counts something. -/
def count (n : Nat) : Value := .number (Float.ofNat n)

/-- The name of a value's type. -/
def typeName : Value → String
  | number _ => "Number"
  | text _ => "String"
  | bool _ => "Bool"
  | nothing => "Nothing"
  | error _ _ => "Error"
  | array _ => "Array"
  | dictionary _ => "Dictionary"
  | struct _ => "Struct"
  | object _ => "Object"
  | function _ => "Function"
  | native _ => "NativeFunction"
  | exports _ => "Namespace"

end Value

end Kestrel
