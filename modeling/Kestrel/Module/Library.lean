import Kestrel.Fault.Cause
import Kestrel.Native.Names

/-!
# Native libraries

Libraries that an import finds by name, before any module. A library binds the alias of the import
to one value and does nothing else.
-/

namespace Kestrel

/-- A value that a library offers. -/
inductive LibraryMember where
  | number (value : Float)
  | text (value : String)
  | function (value : Builtin)
  deriving Repr

/-- What a library binds the alias to: a collection of members, or one value. -/
inductive LibraryContent where
  | members (list : List (String × LibraryMember))
  | single (member : LibraryMember)
  deriving Repr

/-- A library: what it binds an alias to, or why it cannot. -/
structure Library where
  name : String
  content : String → Except Cause LibraryContent

namespace Library

/-- The ratio of a circle's circumference to its diameter, as a double. -/
def pi : Float := Float.ofBits 0x400921fb54442d18

/-- The base of the natural logarithm, as a double. -/
def eulersNumber : Float := Float.ofBits 0x4005bf0a8b145769

/-- Constants and numeric functions. -/
def math : Library where
  name := "math"
  content := fun _ => .ok <| .members <|
    [("pi", .number pi), ("e", .number eulersNumber)] ++
      [Builtin.sqrt, .pow, .floor, .ceil, .abs, .min, .max].map fun function =>
        (function.name, .function function)

end Library

end Kestrel
