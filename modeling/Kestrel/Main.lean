import Kestrel.CommandLine.Execution

/-!
# The program

Connects commands and dialogs to the standard streams and to the files of the system. A file is
read when a command turns out to need it, and the command is then tried again.
-/

namespace Kestrel

/-- The files that were looked at so far. -/
abbrev KnownFiles := List (String × FileContent)

/-- The known files as files. -/
def KnownFiles.files (known : KnownFiles) : Files := fun path =>
  (known.lookup path).getD .unknown

/-- The number of an error of the system, which may come negated. -/
def errorNumber (code : UInt32) : Nat :=
  if code.toNat < 0x80000000 then code.toNat else 0x100000000 - code.toNat

/-- What an error of the system says of a file. -/
def FileContent.ofErrorNumber (number : Nat) (details : String) : FileContent :=
  match number with
  | 2 => .missing
  | 20 => .throughFile
  | 21 => .directory
  | 36 => .longName
  | 13 => .unreadable "Permission denied (os error 13)"
  | other => .unreadable (details ++ " (os error " ++ toString other ++ ")")

/-- What an error says of a file. -/
def FileContent.ofError (error : IO.Error) : FileContent :=
  match error with
  | .noFileOrDirectory _ code details => .ofErrorNumber (errorNumber code) details
  | .inappropriateType _ code details => .ofErrorNumber (errorNumber code) details
  | .permissionDenied _ code details => .ofErrorNumber (errorNumber code) details
  | .invalidArgument _ code details => .ofErrorNumber (errorNumber code) details
  | .otherError code details => .ofErrorNumber (errorNumber code) details
  | .userError _ => .unreadable "stream did not contain valid UTF-8"
  | other => .unreadable (toString other)

/-- Looks at a file. -/
def lookAt (path : String) : IO FileContent := do
  try
    return .text (← IO.FS.readFile path)
  catch error =>
    return .ofError error

/-- Tries something that needs files until all of them are known. -/
partial def withFilesKnown {α : Type} (known : KnownFiles) (attempt : Files → Except Halt α) :
    IO (Option (α × KnownFiles)) := do
  match attempt known.files with
  | .ok result => return some (result, known)
  | .error .outOfSteps => return none
  | .error (.awaitingFile path) =>
    withFilesKnown ((path, ← lookAt path) :: known) attempt

/-- Reads a stream to its end. -/
partial def readAll (stream : IO.FS.Stream) (text : String) : IO String := do
  let line ← stream.getLine
  if line.isEmpty then return text else readAll stream (text ++ line)

/-- Shows what a dialog has to say. -/
def showStep (text : String) (reports : List Report) : IO Unit := do
  let output ← IO.getStdout
  output.putStr text
  output.flush
  for report in reports do
    IO.eprintln report.text

/-- Holds a dialog about the lines of the standard input. -/
partial def holdDialog (dialog : Dialog) (known : KnownFiles) : IO Unit := do
  let input ← IO.getStdin
  if ← input.isTty then
    showStep (if dialog.pending?.isSome then "... " else "kestrel> ") []
  let line ← input.getLine
  if line.isEmpty then return
  let content := (Dialog.linesOf [] line.toList).headD ""
  match ← withFilesKnown known fun files => (dialog.withFiles files).enter content with
  | none => return
  | some (step, _) =>
    showStep step.text step.report?.toList
    if step.isOver then return
    holdDialog step.dialog []

/-- Executes a command and gives its exit code. -/
def perform (command : Command) (settings : Settings) : IO UInt32 := do
  match command with
  | .interact =>
    showStep Dialog.greeting []
    holdDialog (.start settings (KnownFiles.files [])) []
    showStep Dialog.farewell []
    return 0
  | command =>
    let input ← match command with
      | .parse files _ =>
        if files.contains Command.standardInput then readAll (← IO.getStdin) "" else pure ""
      | _ => pure ""
    match ← withFilesKnown [] fun files => command.execute settings files input with
    | none => return 1
    | some (outcome, _) =>
      showStep outcome.text outcome.reports
      return outcome.exitCode.toUInt32

end Kestrel

/-- The program. -/
def main (arguments : List String) : IO UInt32 := do
  match Kestrel.Arguments.request? arguments with
  | some (.execute command settings) => Kestrel.perform command settings
  | some .version =>
    Kestrel.showStep Kestrel.versionText []
    return 0
  | some .help =>
    Kestrel.showStep Kestrel.usageText []
    return 0
  | none =>
    IO.eprint Kestrel.usageText
    return 2
