import Kestrel.Interactive.Repl

/-!
# The dialog with an interactive session

The lines that are typed are put together until no bracket and no string is open, and then are one
input. The dialog ends when a command asks for it or when there are no more lines; an input that is
still open then is dropped.
-/

namespace Kestrel

namespace Dialog

/-- What a place in an input belongs to. -/
inductive InputState where
  | code
  | string
  /-- After a backslash in a string. -/
  | escaped
  | comment
  deriving DecidableEq, Repr

/-- Whether an input is complete, where `depth` brackets are open before `rest`. In a string only
its end counts, and in a comment only the end of its line. More brackets may be closed than
opened. They are counted in 32 bits, wrapping around. -/
def closes : InputState → Int32 → (rest : List Char) → Bool
  | .code, depth, [] => decide (depth ≤ 0)
  | .comment, depth, [] => decide (depth ≤ 0)
  | .string, _, [] => false
  | .escaped, _, [] => false
  | .escaped, depth, _ :: rest => closes .string depth rest
  | .string, depth, c :: rest =>
    if c = '\\' then closes .escaped depth rest
    else if c = '"' then closes .code depth rest
    else closes .string depth rest
  | .comment, depth, c :: rest =>
    if c = '\n' then closes .code depth rest else closes .comment depth rest
  | .code, depth, c :: rest =>
    if c = '"' then closes .string depth rest
    else if c = '\x7b' ∨ c = '[' ∨ c = '(' then closes .code (depth + 1) rest
    else if c = '\x7d' ∨ c = ']' ∨ c = ')' then closes .code (depth - 1) rest
    else if c = '/' ∧ rest.head? = some '/' then closes .comment depth rest
    else closes .code depth rest

/-- Whether an input is complete. -/
def isComplete (input : String) : Bool := closes .code 0 input.toList

end Dialog

/-- An interactive session with the lines of an input that is still open. -/
structure Dialog where
  repl : Repl
  /-- The text of the open input; none if a new input is due. -/
  pending? : Option String

/-- What is shown after a line. -/
structure DialogStep where
  dialog : Dialog
  /-- What is printed. -/
  text : String
  report? : Option Report
  isOver : Bool

namespace Dialog

/-- The text before the first line. -/
def greeting : String :=
  "Kestrel REPL v0.1.0\n" ++ "Type :help for commands, :quit to exit\n\n"

/-- The text after the last line. -/
def farewell : String := "Goodbye!\n"

/-- The dialog before the first line. -/
def start (settings : Settings) (files : Files) : Dialog := ⟨.start settings files, none⟩

/-- The dialog with other files. -/
def withFiles (dialog : Dialog) (files : Files) : Dialog :=
  let session := dialog.repl.session.withLoader (.fromFiles files)
  { dialog with repl := { dialog.repl with session } }

/-- The input so far, with a new line. A blank line starts no input, but is one. -/
def extend (pending? : Option String) (line : String) : String :=
  match pending? with
  | some text => text ++ "\n" ++ line
  | none => if (trimmed line.toList).isEmpty then "" else line

/-- Takes a complete input. -/
def answer (repl : Repl) (input : String) : Except Halt DialogStep :=
  match repl.evaluate input with
  | .error reason => .error reason
  | .ok (outcome, repl) =>
    match repl.takeOutput with
    | (printed, repl) =>
      match outcome with
      | .error error => .ok ⟨⟨repl.noteError, none⟩, printed, some error.report, false⟩
      | .ok outcome =>
        let shown := match repl.shownText? outcome with
          | some text => text ++ "\n"
          | none => ""
        .ok ⟨⟨repl, none⟩, printed ++ shown, none, outcome = .leaving⟩

/-- Takes a line, without its end. -/
def enter (dialog : Dialog) (line : String) : Except Halt DialogStep :=
  let input := extend dialog.pending? line
  if isComplete input then answer dialog.repl input
  else .ok ⟨{ dialog with pending? := some input }, "", none, false⟩

end Dialog

/-- What a dialog showed. -/
structure Transcript where
  text : String
  reports : List Report
  deriving DecidableEq, Repr

namespace Dialog

/-- Takes lines up to the end of the dialog, after what was shown so far. -/
def enterLines (dialog : Dialog) (shown : Transcript) : List String → Except Halt Transcript
  | [] => .ok shown
  | line :: others =>
    match dialog.enter line with
    | .error reason => .error reason
    | .ok step =>
      let shown : Transcript := ⟨shown.text ++ step.text, shown.reports ++ step.report?.toList⟩
      if step.isOver then .ok shown else step.dialog.enterLines shown others

/-- The lines of a text: each ends with a line feed, before which a carriage return does not count.
The last one may lack its end. `line` is the current one, last character first. -/
def linesOf (line : List Char) : List Char → List String
  | [] => if line.isEmpty then [] else [String.ofList line.reverse]
  | c :: rest =>
    if c = '\n' then
      let kept := match line with
        | '\r' :: before => before
        | _ => line
      String.ofList kept.reverse :: linesOf [] rest
    else linesOf (c :: line) rest

/-- The whole dialog about a text of lines. -/
def converse (settings : Settings) (files : Files) (input : String) : Except Halt Transcript :=
  ((start settings files).enterLines ⟨greeting, []⟩ (linesOf [] input.toList)).map fun shown =>
    { shown with text := shown.text ++ farewell }

end Dialog

end Kestrel
