/-!
# Kinds of runtime errors

Programs see the kind of an error by its name.
-/

namespace Kestrel

/-- The kinds of errors that a running program can meet. -/
inductive ErrorKind where
  | runtime
  | identifier
  | type
  | invalidIndex
  | invalidArgument
  | property
  | invalidConversion
  | zeroDivision
  | circularImport
  deriving DecidableEq, Repr, Inhabited

namespace ErrorKind

/-- All kinds. -/
def all : List ErrorKind :=
  [runtime, identifier, type, invalidIndex, invalidArgument, property, invalidConversion,
    zeroDivision, circularImport]

/-- The name of a kind. -/
def name : ErrorKind → String
  | runtime => "RuntimeError"
  | identifier => "IdentifierError"
  | type => "TypeError"
  | invalidIndex => "InvalidIndexError"
  | invalidArgument => "InvalidArgumentError"
  | property => "PropertyError"
  | invalidConversion => "InvalidConversionError"
  | zeroDivision => "ZeroDivisionError"
  | circularImport => "CircularImportError"

/-- The kind of a given name. -/
def ofName? (name : String) : Option ErrorKind := all.find? fun kind => kind.name = name

end ErrorKind

end Kestrel
