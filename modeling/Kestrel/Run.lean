import Kestrel.Eval.Statement

/-!
# Running programs

A program is run as a module of its own, or inside a module that is kept between runs. A run ends
with the value of the last statement or with an error, and leaves its state behind either way.
-/

namespace Kestrel

open Eval

/-- How programs are run. -/
structure Settings where
  /-- How many calls may be active at once. -/
  maxCallDepth : Nat
  /-- Whether logical operators look at their right operand only if it matters. -/
  shortCircuit : Bool
  deriving DecidableEq, Repr

/-- The settings unless others are asked for. -/
def Settings.default : Settings := ⟨CallStack.defaultMaxDepth, false⟩

/-- The surroundings of programs whose modules come from a loader. -/
def Settings.host (settings : Settings) (loader : Loader) : Host :=
  ⟨settings.shortCircuit, loader, [Library.math]⟩

/-- The state before anything has run. -/
def Settings.initialState (settings : Settings) (output : Output) : State :=
  ⟨.empty, .empty settings.maxCallDepth, output⟩

/-- Why a run has no value. -/
inductive RunError where
  | refused (error : SyntaxError)
  | failed (error : RuntimeError)
  | unreadable (path reason : String)
  deriving Repr

/-- The message with all that belongs to it. -/
def RunError.text : RunError → String
  | refused error => error.message
  | failed error => error.text
  | unreadable path reason => "Failed to read '" ++ path ++ "': " ++ reason

/-- The code under which the error is reported. -/
def RunError.code : RunError → String
  | refused error => error.fault.code
  | failed error => error.code
  | unreadable _ _ => "kestrel::io"

/-- A run from some state: its end with the state after it, unless it was halted. -/
abbrev Run (σ ε α : Type) := Except Halt (Except ε α × σ)

/-- The run that ends as `f` says of how another one ended. -/
def Run.mapEnd {σ τ ε δ α β : Type} (run : Run σ ε α)
    (f : Except ε α → σ → Except δ β × τ) : Run τ δ β :=
  match run with
  | .ok (outcome, state) => .ok (f outcome state)
  | .error reason => .error reason

/-- How many constructs deep a program can go, and how often a loop can repeat: more than any
program reaches in a lifetime. -/
def stepLimit : Nat := 1000000000000000000

/-- The evaluator of whole programs. -/
def Host.evaluator (host : Host) : Evaluator := .ofSteps host stepLimit

/-- The end of a computation as the end of a run. -/
def Result.toRun : Result Value → Run State RunError Value
  | .value v state => .ok (.ok v, state)
  | .interrupted interrupt state => .ok (.error (.failed interrupt.asError), state)
  | .halted reason => .error reason

/-- Parses a source text and runs it in a scope. -/
def evaluateIn (host : Host) (source : String) (scope : Scope) (state : State) :
    Run State RunError Value :=
  match parseProgram source (some scope.module) with
  | .error error => .ok (.error (.refused error), state)
  | .ok program => (executeProgram host.evaluator scope program.statements state).toRun

/-- Parses a source text and runs it as the module of a given name. -/
def runSource (host : Host) (source module : String) (state : State) :
    Run State RunError Value :=
  let key := host.loader.entryKey module
  match parseProgram source (some key) with
  | .error error => .ok (.error (.refused error), state)
  | .ok program =>
    let (scope, store) := Scope.ofMain state.store key
    (executeProgram host.evaluator scope program.statements { state with store }).toRun

/-- Reads a file and runs it as a module. -/
def runFile (settings : Settings) (files : Files) (path : String) (state : State) :
    Run State RunError Value :=
  match readFile files path with
  | .awaiting => .error (.awaitingFile path)
  | .failed reason => .ok (.error (.unreadable path reason), state)
  | .content source =>
    runSource (settings.host (.fromFiles files)) source (Path.moduleKey path) state

end Kestrel
