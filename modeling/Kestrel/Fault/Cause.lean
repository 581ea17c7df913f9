import Kestrel.Fault.Kind
import Kestrel.Number.Layout
import Kestrel.Syntax.Operator

/-!
# Causes of runtime errors

What can go wrong while a program runs. Each cause has a kind and a message; a program that catches
an error sees these two.
-/

namespace Kestrel

/-- A way of leaving a loop early. -/
inductive LoopExit where
  | breaking
  | continuing
  deriving DecidableEq, Repr, Inhabited

/-- The word that asks for a loop exit. -/
def LoopExit.keyword : LoopExit → String
  | breaking => "break"
  | continuing => "continue"

/-- Why an operation failed. Types are given by their names in the language. -/
inductive Cause where
  /-- An error that a program or a library made itself. -/
  | raised (kind : ErrorKind) (message : String)
  | undefinedName (name : String)
  | alreadyDeclared (name : String)
  | assignedBeforeDeclared (name : String)
  | duplicateProperty (property structName : String)
  | duplicateMethod (structName method : String)
  | literalOfNoStruct (type : String)
  | methodOfNoStruct (name type : String)
  | notCallable (type : String)
  | notIndexable (type : String)
  | notIterable (type : String)
  | noIndexAssignment (type : String)
  | noPropertyAssignment (name type : String)
  | notAssignable (tag : String)
  | indexNotANumber (type : String)
  | indexOutOfRange (index : Float) (length : Nat)
  | missingKey (key : String)
  | popFromEmpty
  | noProperty (owner name : String)
  | noConversion (source target : String)
  | operandTypes (operator : BinaryOperator) (left right : String)
  | operandType (operator : UnaryOperator) (type : String)
  | divisionByZero
  | missingArgument (callee : String) (position : Nat)
  | tooFewArguments (callee : String) (least given : Nat)
  | argumentType (callee expected : String) (position : Nat) (found : String)
  | tooManyElements (callee : String) (limit : Nat)
  | emptyFill (callee : String)
  | unknownErrorKind (name : String)
  | assertionFailed (message : String)
  | outputFailed (callee reason : String)
  | depthExceeded (limit : Nat)
  | circularImport (target importer : String)
  | importFailed (path reason : String)
  | loopExitOutside (exit : LoopExit)
  deriving DecidableEq, Repr

namespace Cause

/-- The kind of error. -/
def kind : Cause → ErrorKind
  | raised kind _ => kind
  | undefinedName _ | alreadyDeclared _ | assignedBeforeDeclared _ | duplicateProperty _ _
  | duplicateMethod _ _ => .identifier
  | literalOfNoStruct _ | methodOfNoStruct _ _ | notCallable _ | notIndexable _ | notIterable _
  | noIndexAssignment _ | noPropertyAssignment _ _ | indexNotANumber _ | operandTypes _ _ _
  | operandType _ _ => .type
  | indexOutOfRange _ _ | missingKey _ | popFromEmpty => .invalidIndex
  | noProperty _ _ => .property
  | noConversion _ _ => .invalidConversion
  | divisionByZero => .zeroDivision
  | missingArgument _ _ | tooFewArguments _ _ _ | argumentType _ _ _ _ | tooManyElements _ _
  | emptyFill _ | unknownErrorKind _ => .invalidArgument
  | circularImport _ _ => .circularImport
  | notAssignable _ | assertionFailed _ | outputFailed _ _ | depthExceeded _ | importFailed _ _
  | loopExitOutside _ => .runtime

/-- The message. Arguments are counted from one in it. -/
def message : Cause → String
  | raised _ message => message
  | undefinedName name => "'" ++ name ++ "' is not defined"
  | alreadyDeclared name => "'" ++ name ++ "' is already declared in this scope"
  | assignedBeforeDeclared name => "cannot assign to '" ++ name ++ "' before it is declared"
  | duplicateProperty property structName =>
    "duplicate property '" ++ property ++ "' in struct '" ++ structName ++ "'"
  | duplicateMethod structName method =>
    "'" ++ structName ++ "' already has a method '" ++ method ++ "'"
  | literalOfNoStruct type => type ++ " is not a struct"
  | methodOfNoStruct name type => "'" ++ name ++ "' is a " ++ type ++ ", not a struct"
  | notCallable type => type ++ " is not callable"
  | notIndexable type => type ++ " is not indexable"
  | notIterable type => "cannot iterate over " ++ type
  | noIndexAssignment type => type ++ " does not support index assignment"
  | noPropertyAssignment name type => "cannot set property '" ++ name ++ "' on " ++ type
  | notAssignable tag => "cannot assign to " ++ tag
  | indexNotANumber type => "index must be a Number, not " ++ type
  | indexOutOfRange index length =>
    "index " ++ numberText index ++ " out of range for length " ++ toString length
  | missingKey key => "key \"" ++ key ++ "\" not found"
  | popFromEmpty => "pop from an empty array"
  | noProperty owner name => owner ++ " has no property '" ++ name ++ "'"
  | noConversion source target => "cannot convert " ++ source ++ " to " ++ target
  | operandTypes operator left right =>
    "unsupported operand types for '" ++ operator.symbol ++ "': " ++ left ++ " and " ++ right
  | operandType operator type => "cannot apply '" ++ operator.symbol ++ "' to " ++ type
  | divisionByZero => "division by zero"
  | missingArgument callee position =>
    callee ++ "() is missing argument " ++ toString (position + 1)
  | tooFewArguments callee least given =>
    callee ++ "() expects at least " ++ toString least ++ " argument" ++
      (if least = 1 then "" else "s") ++ ", got " ++ toString given
  | argumentType callee expected position found =>
    callee ++ "() expects a " ++ expected ++ " for argument " ++ toString (position + 1) ++
      ", got " ++ found
  | tooManyElements callee limit =>
    callee ++ "() cannot produce more than " ++ toString limit ++ " elements"
  | emptyFill callee => callee ++ "() fill must not be empty"
  | unknownErrorKind name => "unknown error kind '" ++ name ++ "'"
  | assertionFailed message => message
  | outputFailed callee reason => callee ++ "() failed: " ++ reason
  | depthExceeded limit => "maximum call depth of " ++ toString limit ++ " exceeded"
  | circularImport target importer =>
    "circular import of '" ++ target ++ "' from '" ++ importer ++ "'"
  | importFailed path reason => "cannot import '" ++ path ++ "': " ++ reason
  | loopExitOutside exit => "'" ++ exit.keyword ++ "' outside of a loop"

end Cause

end Kestrel
