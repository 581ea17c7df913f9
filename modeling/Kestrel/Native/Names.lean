import Kestrel.Value.Basic

/-!
# Built-in functions and methods

The functions that every module starts with, those of the library `math`, and the methods that
values have. A method is bound to the value through which it was reached.
-/

namespace Kestrel

/-- Functions that stand alone. -/
inductive Builtin where
  | print | println | type | string | number | error | range | assert
  | sqrt | pow | floor | ceil | abs | min | max
  deriving DecidableEq, Repr, Inhabited

/-- The name of a function. -/
def Builtin.name : Builtin → String
  | print => "print"
  | println => "println"
  | type => "type"
  | string => "string"
  | number => "number"
  | error => "error"
  | range => "range"
  | assert => "assert"
  | sqrt => "sqrt"
  | pow => "pow"
  | floor => "floor"
  | ceil => "ceil"
  | abs => "abs"
  | min => "min"
  | max => "max"

/-- The functions in the outermost scope of every module, in order. -/
def Builtin.everywhere : List Builtin :=
  [print, println, type, string, number, error, range, assert]

/-- Methods of numbers. -/
inductive NumberMethod where
  | toString | floor | ceil | round | abs
  deriving DecidableEq, Repr, Inhabited

namespace NumberMethod

/-- The name of a method. -/
def name : NumberMethod → String
  | toString => "to_string"
  | floor => "floor"
  | ceil => "ceil"
  | round => "round"
  | abs => "abs"

/-- The method of a given name. -/
def ofName? (name : String) : Option NumberMethod :=
  [toString, floor, ceil, round, abs].find? fun method => method.name = name

end NumberMethod

/-- Methods of text. -/
inductive TextMethod where
  | len | upper | lower | trim | split | contains | find | slice | padLeft | padRight
  | toNumber | mutable | append
  deriving DecidableEq, Repr, Inhabited

namespace TextMethod

/-- The name of a method. -/
def name : TextMethod → String
  | len => "len"
  | upper => "upper"
  | lower => "lower"
  | trim => "trim"
  | split => "split"
  | contains => "contains"
  | find => "find"
  | slice => "slice"
  | padLeft => "pad_left"
  | padRight => "pad_right"
  | toNumber => "to_number"
  | mutable => "mutable"
  | append => "append"

/-- The methods of every text. -/
def ofFixed : List TextMethod :=
  [len, upper, lower, trim, split, contains, find, slice, padLeft, padRight, toNumber, mutable]

/-- The method of a given name on a text; only growing text can be appended to. -/
def ofName? (receiver : TextValue) (name : String) : Option TextMethod :=
  let methods := match receiver with
    | .fixed _ => ofFixed
    | .buffer _ => append :: ofFixed
  methods.find? fun method => method.name = name

end TextMethod

/-- Methods of arrays. -/
inductive ArrayMethod where
  | len | add | insert | remove | pop | has | find | slice | join | reverse | copy
  deriving DecidableEq, Repr, Inhabited

namespace ArrayMethod

/-- The name of a method. -/
def name : ArrayMethod → String
  | len => "len"
  | add => "add"
  | insert => "insert"
  | remove => "remove"
  | pop => "pop"
  | has => "has"
  | find => "find"
  | slice => "slice"
  | join => "join"
  | reverse => "reverse"
  | copy => "copy"

/-- The method of a given name. -/
def ofName? (name : String) : Option ArrayMethod :=
  [len, add, insert, remove, pop, has, find, slice, join, reverse, copy].find? fun method =>
    method.name = name

end ArrayMethod

/-- Methods of dictionaries. -/
inductive DictionaryMethod where
  | len | add | remove | has | keys | values | get
  deriving DecidableEq, Repr, Inhabited

namespace DictionaryMethod

/-- The name of a method. -/
def name : DictionaryMethod → String
  | len => "len"
  | add => "add"
  | remove => "remove"
  | has => "has"
  | keys => "keys"
  | values => "values"
  | get => "get"

/-- The method of a given name. -/
def ofName? (name : String) : Option DictionaryMethod :=
  [len, add, remove, has, keys, values, get].find? fun method => method.name = name

end DictionaryMethod

/-- A built-in function, or a method with the value that it belongs to. -/
inductive Native where
  | builtin (function : Builtin)
  | ofNumber (receiver : Float) (method : NumberMethod)
  | ofText (receiver : TextValue) (method : TextMethod)
  | ofArray (receiver : Ref .array) (method : ArrayMethod)
  | ofDictionary (receiver : Ref .dictionary) (method : DictionaryMethod)
  deriving DecidableEq, Repr, Inhabited

/-- The name by which errors and values show a native function. -/
def Native.name : Native → String
  | builtin function => function.name
  | ofNumber _ method => method.name
  | ofText _ method => method.name
  | ofArray _ method => method.name
  | ofDictionary _ method => method.name

end Kestrel
