import Kestrel.CallStack

/-!
# Runtime errors with their origin

An error remembers the innermost statement that it escaped from and the calls that were active
there. Once known, the origin stays.
-/

namespace Kestrel

/-- A line of a module. -/
structure Location where
  module : String
  line : Nat
  deriving DecidableEq, Repr, Inhabited

/-- A location as text. -/
def Location.text (location : Location) : String :=
  location.module ++ ":" ++ toString location.line

/-- A failure of a running program, with its origin once that is known. -/
structure RuntimeError where
  cause : Cause
  location? : Option Location
  /-- The calls active at the location, innermost first. -/
  trace : List Frame
  deriving DecidableEq, Repr

namespace RuntimeError

/-- An error whose origin is not known yet. -/
def ofCause (cause : Cause) : RuntimeError := ⟨cause, none, []⟩

/-- The kind of error. -/
def kind (error : RuntimeError) : ErrorKind := error.cause.kind

/-- The message. -/
def message (error : RuntimeError) : String := error.cause.message

/-- Notes the origin, unless it is known already. -/
def locate (error : RuntimeError) (location : Location) (trace : List Frame) : RuntimeError :=
  match error.location? with
  | some _ => error
  | none => { error with location? := some location, trace }

/-- Kind, message and, if known, location. -/
def text (error : RuntimeError) : String :=
  error.kind.name ++ ": " ++ error.message ++
    match error.location? with
    | none => ""
    | some location => " (at " ++ location.text ++ ")"

/-- The code under which the error is reported. -/
def code (error : RuntimeError) : String := "kestrel::runtime::" ++ error.kind.name

/-- The active calls, one to a line. -/
def backtrace (error : RuntimeError) : String :=
  "\n".intercalate (error.trace.map fun frame => "  in " ++ frame.text)

/-- The backtrace as a note to the error, if there is any. -/
def help? (error : RuntimeError) : Option String :=
  if error.trace.isEmpty then none else some ("backtrace:\n" ++ error.backtrace)

end RuntimeError

end Kestrel
