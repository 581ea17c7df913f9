import Kestrel.CommandLine.Arguments
import Kestrel.Interactive.Dialog
import Kestrel.Syntax.Outline
import Kestrel.Syntax.Sexpr

/-!
# Executing commands

A command prints to the standard output, reports failures and ends with an exit code. What it needs
of the standard input is given as a text.
-/

namespace Kestrel

/-- Why a file given to a command is not used. -/
inductive CommandError where
  | notFound (path : String)
  | wrongExtension (path : String)
  | unreadable (name : String)
  | parseFailures (count total : Nat)
  | refused (error : SyntaxError)
  | run (error : RunError)
  deriving Repr

/-- A failure as it is reported. -/
def CommandError.report : CommandError → Report
  | notFound path => ⟨"kestrel::cli::not_found", "File not found: " ++ path, none⟩
  | wrongExtension path =>
    ⟨"kestrel::cli::extension", "Expected a .kes file, got: " ++ path, none⟩
  | unreadable name => ⟨"kestrel::cli::io", "Could not read " ++ name, none⟩
  | parseFailures count total =>
    ⟨"kestrel::cli::parse_failed",
      toString count ++ " of " ++ toString total ++ " files failed to parse", none⟩
  | refused error => (RunError.refused error).report
  | run error => error.report

/-- What an executed command leaves behind. -/
structure Outcome where
  exitCode : Nat
  text : String
  reports : List Report
  deriving DecidableEq, Repr

namespace Outcome

/-- The command did what it should. -/
def success (text : String) : Outcome := ⟨0, text, []⟩

/-- The command failed after it had printed a text. -/
def failure (text : String) (error : CommandError) : Outcome := ⟨1, text, [error.report]⟩

/-- The arguments were not understood. -/
def misuse : Outcome := ⟨2, "", []⟩

end Outcome

/-- A source file is there and has the extension of sources. -/
def validateSource (files : Files) (path : String) : Except Halt (Except CommandError Unit) :=
  match files path with
  | .unknown => .error (.awaitingFile path)
  | .absent _ => .ok (.error (.notFound path))
  | _ =>
    if (Path.ofText path).extension? = some Path.sourceExtension then .ok (.ok ())
    else .ok (.error (.wrongExtension path))

namespace Command

/-- Runs the program in a file. -/
def runProgram (settings : Settings) (files : Files) (path : String) : Except Halt Outcome :=
  match validateSource files path with
  | .error reason => .error reason
  | .ok (.error error) => .ok (.failure "" error)
  | .ok (.ok _) =>
    match runFile settings files path (settings.initialState .empty) with
    | .error reason => .error reason
    | .ok (.ok _, state) => .ok (.success state.output.text)
    | .ok (.error error, state) => .ok (.failure state.output.text (.run error))

/-- The file name that stands for the standard input. -/
def standardInput : String := "-"

/-- How a file is called in output. -/
def displayName (path : String) : String := if path = standardInput then "<stdin>" else path

/-- The source text in a file that has been validated. -/
def readSource (files : Files) (path : String) : Except Halt (Except CommandError String) :=
  match validateSource files path with
  | .error reason => .error reason
  | .ok (.error error) => .ok (.error error)
  | .ok (.ok _) =>
    match readFile files path with
    | .content source => .ok (.ok source)
    | .failed _ => .ok (.error (.unreadable (displayName path)))
    | .awaiting => .error (.awaitingFile path)

/-- The syntax tree of a source text, in full or in short, as text of its own lines. -/
def treeText (spans : Bool) (name source : String) : Except CommandError String :=
  match parseProgram source (some name) with
  | .error error => .error (.refused error)
  | .ok program => .ok ((if spans then program.outline.format else program.sexprText) ++ "\n")

/-- Shows the syntax trees of files, one after another. The standard input is read to its end
where it is first asked for. With several files, each success is followed by the name. -/
def parseFiles (files : Files) (spans several : Bool) (input : String) :
    List String → Except Halt Transcript
  | [] => .ok ⟨"", []⟩
  | path :: others =>
    let isInput := path = standardInput
    let source : Except Halt (Except CommandError String) :=
      if isInput then .ok (.ok input) else readSource files path
    match source, parseFiles files spans several (if isInput then "" else input) others with
    | .error reason, _ => .error reason
    | _, .error reason => .error reason
    | .ok source, .ok shown =>
      match source.bind (treeText spans (displayName path)) with
      | .ok tree =>
        let mark := if several then "✅ " ++ displayName path ++ "\n" else ""
        .ok { shown with text := tree ++ mark ++ shown.text }
      | .error error => .ok { shown with reports := error.report :: shown.reports }

/-- Shows the syntax trees of files, and says how many could not be parsed. -/
def parsePrograms (files : Files) (paths : List String) (spans : Bool) (input : String) :
    Except Halt Outcome :=
  (parseFiles files spans (1 < paths.length) input paths).map fun shown =>
    match shown.reports with
    | [] => .success shown.text
    | reports =>
      ⟨1, shown.text,
        reports ++ [(CommandError.parseFailures reports.length paths.length).report]⟩

/-- Holds a dialog about lines that are all known. -/
def converse (settings : Settings) (files : Files) (input : String) : Except Halt Outcome :=
  (Dialog.converse settings files input).map fun shown => ⟨0, shown.text, shown.reports⟩

/-- Executes a command. -/
def execute (settings : Settings) (files : Files) (input : String) :
    Command → Except Halt Outcome
  | .run file => runProgram settings files file
  | .parse paths spans => parsePrograms files paths spans input
  | .interact => converse settings files input

end Command

/-- The name and the version of the program. -/
def versionText : String := "kestrel 0.1.0\n"

/-- How the program is used. -/
def usageText : String :=
  "The Kestrel scripting language\n" ++
  "\n" ++
  "Usage: kestrel [OPTIONS] [COMMAND]\n" ++
  "\n" ++
  "Commands:\n" ++
  "  run FILE              Run a Kestrel program\n" ++
  "  parse [-s] FILE...    Parse source files and display their syntax trees\n" ++
  "  repl                  Start an interactive session (the default)\n" ++
  "\n" ++
  "Options:\n" ++
  "  --max-call-depth N    Maximum depth of nested function calls\n" ++
  "  --short-circuit       Stop evaluating and/or once the left operand decides\n" ++
  "  -s, --spans           Show the full syntax tree including spans\n" ++
  "  -V, --version         Show the version\n"

/-- Does what the arguments ask for. -/
def executeArguments (arguments : List String) (files : Files) (input : String) :
    Except Halt Outcome :=
  match Arguments.request? arguments with
  | none => .ok .misuse
  | some .version => .ok (.success versionText)
  | some .help => .ok (.success usageText)
  | some (.execute command settings) => command.execute settings files input

end Kestrel
