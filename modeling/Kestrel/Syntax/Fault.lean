import Kestrel.Grammar.Attempts

/-!
# Syntax errors

Why a source text is no program, where the reason lies, and how it is told.
-/

namespace Kestrel

/-- The reasons for which a source text is refused. -/
inductive SyntaxFault where
  /-- The text does not follow the grammar: at `place`, one of the `alternatives` was expected. -/
  | expected (place : Position) (alternatives : List Rule)
  /-- A rule does not have the parts that its tree is made from. -/
  | unexpectedRule (span : Span) (context found : String)
  /-- A number literal that denotes no number. -/
  | invalidNumber (span : Span) (found : String)
  /-- A backslash, at the given offset, before a character that it cannot escape. -/
  | invalidEscape (offset : Nat) (escaped : Char)
  /-- An assignment to something that cannot be assigned to. -/
  | notAssignable (target : Span)
  deriving DecidableEq, Repr

/-- A highlighted stretch of source. -/
structure SourceLabel where
  offset : Nat
  length : Nat
  text : String
  deriving DecidableEq, Repr

/-- Several alternatives in a sentence: commas, and `or` before the last one. -/
def joinAlternatives : List String → String
  | [] => ""
  | [only] => only
  | items => ", ".intercalate items.dropLast ++ " or " ++ items.getLastD ""

/-- A list without repetitions of the element before. -/
def withoutNeighbours : List String → List String
  | [] => []
  | [only] => [only]
  | first :: second :: rest =>
    if first = second then withoutNeighbours (second :: rest)
    else first :: withoutNeighbours (second :: rest)

/-- What was expected, in words. -/
def expectedText (alternatives : List Rule) : String :=
  match withoutNeighbours (alternatives.map Rule.description) with
  | [] => "unexpected input"
  | descriptions => "expected " ++ joinAlternatives descriptions

namespace SyntaxFault

/-- The message. -/
def message : SyntaxFault → String
  | expected place alternatives =>
    "Parse error on line " ++ toString place.line ++ ": " ++ expectedText alternatives
  | unexpectedRule _ context found => "Unexpected " ++ found ++ " while parsing " ++ context
  | invalidNumber _ found => "Invalid number literal `" ++ found ++ "`"
  | invalidEscape _ escaped =>
    "Invalid string escape sequence `" ++ String.ofList ['\\', escaped] ++ "`"
  | notAssignable _ => "Cannot assign to this expression"

/-- The code under which the fault is reported. -/
def code : SyntaxFault → String
  | expected .. => "kestrel::parse::syntax"
  | unexpectedRule .. => "kestrel::parse::unexpected_rule"
  | invalidNumber .. => "kestrel::parse::invalid_number"
  | invalidEscape .. => "kestrel::parse::invalid_string_escape"
  | notAssignable .. => "kestrel::parse::invalid_assignment_target"

/-- The source that the fault is about. -/
def label : SyntaxFault → SourceLabel
  | expected place _ => ⟨place.offset, 1, "error occurred here"⟩
  | unexpectedRule span _ _ => ⟨span.start, span.length, "here"⟩
  | invalidNumber span _ => ⟨span.start, span.length, "invalid number"⟩
  | invalidEscape offset escaped => ⟨offset, 1 + escaped.utf8Size, "invalid escape sequence"⟩
  | notAssignable target => ⟨target.start, target.length, "not assignable"⟩

/-- The line of the fault, where it is part of the message. -/
def line? : SyntaxFault → Option Nat
  | expected place _ => some place.line
  | _ => none

end SyntaxFault

/-- A refused source text with the reason. -/
structure SyntaxError where
  source : String
  fault : SyntaxFault
  deriving DecidableEq, Repr

/-- The message. -/
def SyntaxError.message (error : SyntaxError) : String := error.fault.message

end Kestrel
