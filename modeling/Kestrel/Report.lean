import Kestrel.Run

/-!
# Reports

What is told about a failure besides the output of the program: a code for its kind, a message and
possibly a note.
-/

namespace Kestrel

/-- A failure as it is reported. -/
structure Report where
  code : String
  message : String
  note? : Option String
  deriving DecidableEq, Repr

/-- The note to a failed run: the backtrace of its error. -/
def RunError.note? : RunError → Option String
  | failed error => error.help?
  | _ => none

/-- A failed run as it is reported. -/
def RunError.report (error : RunError) : Report := ⟨error.code, error.text, error.note?⟩

/-- A report as text. -/
def Report.text (report : Report) : String :=
  report.code ++ ": " ++ report.message ++
    match report.note? with
    | none => ""
    | some note => "\n" ++ note

end Kestrel
