import Kestrel.Report
import Kestrel.Session
import Kestrel.Text.Blank

/-!
# The interactive session

Every input is a command about the session, which starts with a colon, or a source text that is run
in it.
-/

namespace Kestrel

/-- An interactive session and what has happened in it. -/
structure Repl where
  session : Session
  linesEvaluated : Nat
  errorsMet : Nat
  commandsExecuted : Nat

/-- What an input leads to. -/
inductive ReplOutcome where
  | value (value : Value)
  /-- What a command has to say. -/
  | message (text : String)
  /-- The input was blank or a comment. -/
  | idle
  | leaving
  deriving DecidableEq, Repr

/-- Why an input fails. -/
inductive ReplError where
  | run (error : RunError)
  | unknownCommand (word : String)
  deriving Repr

/-- A failed input as it is reported. -/
def ReplError.report : ReplError → Report
  | run error => error.report
  | unknownCommand word =>
    ⟨"kestrel::repl::command", "Unknown command: " ++ word,
      some "Type :help for available commands"⟩

/-- The commands. -/
inductive ReplCommand where
  | help
  | listVariables
  | clear
  | statistics
  | leave
  deriving DecidableEq, Repr

/-- The command that a word stands for. -/
def ReplCommand.ofWord? (word : String) : Option ReplCommand :=
  if word = ":help" ∨ word = ":h" then some help
  else if word = ":vars" then some listVariables
  else if word = ":clear" then some clear
  else if word = ":stats" then some statistics
  else if word = ":quit" ∨ word = ":q" ∨ word = ":exit" then some leave
  else none

namespace Repl

/-- The name of the interactive module. -/
def module : String := "<repl>"

/-- A new interactive session. -/
def start (settings : Settings) (files : Files) : Repl :=
  ⟨.start settings (.fromFiles files) module, 0, 0, 0⟩

/-- What the command `:help` says. -/
def helpText : String :=
  "Kestrel REPL Commands:\n" ++
  "  :help, :h           Show this help message\n" ++
  "  :vars               List session variables with their values\n" ++
  "  :clear              Remove every session binding\n" ++
  "  :stats              Show session statistics\n" ++
  "  :quit, :q, :exit    Exit the REPL\n" ++
  "\n" ++
  "Examples:\n" ++
  "  var xs = [1, 2, 3]   Bind a variable\n" ++
  "  xs.len()             Call a method\n" ++
  "  import \"math\"        Load the math library\n" ++
  "\n" ++
  "Input continues on a new line (...) while brackets or strings are open.\n" ++
  "Use Ctrl+C to abandon input, Ctrl+D to exit."

/-- The names of the session with their values. -/
def variablesText (repl : Repl) : String :=
  let store := repl.session.state.store
  match (repl.session.scope.bindings store).entries with
  | [] => "No variables defined"
  | entries =>
    "\n".intercalate <| "Variables:" :: entries.map fun entry =>
      "  " ++ entry.1 ++ ": " ++ entry.2.typeName ++ " = " ++ entry.2.repr store

/-- What has happened in the session. -/
def statisticsText (repl : Repl) : String :=
  "Session Statistics:\n" ++
  "  Lines evaluated: " ++ toString repl.linesEvaluated ++ "\n" ++
  "  Errors encountered: " ++ toString repl.errorsMet ++ "\n" ++
  "  Commands executed: " ++ toString repl.commandsExecuted

/-- Executes a command. -/
def execute (repl : Repl) : ReplCommand → ReplOutcome × Repl
  | .help => (.message helpText, repl)
  | .listVariables => (.message repl.variablesText, repl)
  | .clear => (.message "Session bindings cleared", { repl with session := repl.session.clear })
  | .statistics => (.message repl.statisticsText, repl)
  | .leave => (.leaving, repl)

/-- Executes the command that a word stands for. -/
def executeWord (repl : Repl) (word : String) : Except ReplError ReplOutcome × Repl :=
  let repl := { repl with commandsExecuted := repl.commandsExecuted + 1 }
  match ReplCommand.ofWord? word with
  | none => (.error (.unknownCommand word), repl)
  | some command =>
    match repl.execute command with
    | (outcome, repl) => (.ok outcome, repl)

/-- Runs a source text. -/
def runSource (repl : Repl) (source : String) : Run Repl ReplError ReplOutcome :=
  (repl.session.run source).mapEnd fun outcome session =>
    ((outcome.map .value).mapError .run,
      { repl with session, linesEvaluated := repl.linesEvaluated + 1 })

/-- Takes an input. Of a command only the first word counts. -/
def evaluate (repl : Repl) (input : String) : Run Repl ReplError ReplOutcome :=
  match trimmed input.toList with
  | [] => .ok (.ok .idle, repl)
  | '/' :: '/' :: _ => .ok (.ok .idle, repl)
  | ':' :: rest => .ok (repl.executeWord (String.ofList (firstWord (':' :: rest))))
  | _ => repl.runSource input

/-- The session after its printed text has been taken away. -/
def takeOutput (repl : Repl) : String × Repl :=
  match repl.session.takeOutput with
  | (text, session) => (text, { repl with session })

/-- The session with one more error counted. -/
def noteError (repl : Repl) : Repl := { repl with errorsMet := repl.errorsMet + 1 }

/-- What is shown of an outcome, without the end of the line. -/
def shownText? (repl : Repl) : ReplOutcome → Option String
  | .value .nothing => none
  | .value shown => some (shown.repr repl.session.state.store)
  | .message text => some text
  | .idle => none
  | .leaving => none

end Repl

end Kestrel
