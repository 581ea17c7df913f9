import Kestrel.Run

/-!
# Command-line arguments

The arguments name a command, options and files. Options start with a dash and may stand anywhere
up to an argument `--`, after which everything is a file. The options that every command has may
also stand before the command; those after it count more.
-/

namespace Kestrel

/-- What the program can be asked to do with programs. -/
inductive Command where
  | run (file : String)
  /-- Shows the syntax trees of files; with `spans`, in full. -/
  | parse (files : List String) (spans : Bool)
  | interact
  deriving DecidableEq, Repr

/-- What the arguments ask for. -/
inductive Request where
  | execute (command : Command) (settings : Settings)
  | version
  | help
  deriving DecidableEq, Repr

namespace Arguments

/-- Why the arguments are not read to their end. -/
inductive Stop where
  /-- They are not understood. -/
  | misuse
  /-- An option asks for something else. -/
  | instead (request : Request)
  deriving DecidableEq, Repr

/-- Where arguments stand: before the name of a command, or after it. -/
inductive Level where
  | top
  | run
  | parse
  | interact
  deriving DecidableEq, Repr

/-- The arguments of one level. -/
structure Given where
  maxCallDepth? : Option Nat
  shortCircuit : Bool
  spans : Bool
  files : List String
  deriving DecidableEq, Repr

/-- No arguments. -/
def Given.nothing : Given := ⟨none, false, false, []⟩

/-- How many calls a machine can count. -/
def depthLimit : Nat := 18446744073709551615

/-- A number of calls: decimal digits, possibly after a plus sign. -/
def readDepth? (text : String) : Option Nat :=
  let digits := match text.toList with
    | '+' :: digits => digits
    | digits => digits
  if digits.isEmpty ∨ ¬ digits.all Char.isDigit then none
  else
    let depth := digits.foldl (fun depth digit => 10 * depth + (digit.toNat - '0'.toNat)) 0
    if depth ≤ depthLimit then some depth else none

/-- Notes the bound on calls. It can be given once at a level. -/
def Given.withDepth (given : Given) (text : String) : Except Stop Given :=
  match given.maxCallDepth?, readDepth? text with
  | none, some depth => .ok { given with maxCallDepth? := some depth }
  | _, _ => .error .misuse

/-- Notes the wish for short circuit. It can be given once at a level. -/
def Given.withShortCircuit (given : Given) : Except Stop Given :=
  if given.shortCircuit then .error .misuse else .ok { given with shortCircuit := true }

/-- Notes the wish for spans. It can be given once. -/
def Given.withSpans (given : Given) : Except Stop Given :=
  if given.spans then .error .misuse else .ok { given with spans := true }

/-- Notes a file, if the command has room for it. -/
def Given.withFile (given : Given) (level : Level) (file : String) : Except Stop Given :=
  let noted : Given := { given with files := given.files ++ [file] }
  if file.isEmpty then .error .misuse
  else
    match level with
    | .run => if given.files.isEmpty then .ok noted else .error .misuse
    | .parse => .ok noted
    | .top => .error .misuse
    | .interact => .error .misuse

/-- Reads options of one letter each. -/
def readLetters (level : Level) (given : Given) : List Char → Except Stop Given
  | [] => .ok given
  | 'h' :: _ => .error (.instead .help)
  | letter :: others =>
    if letter = 'V' ∧ level = .top then .error (.instead .version)
    else if letter = 's' ∧ level = .parse then
      match given.withSpans with
      | .ok given => readLetters level given others
      | .error stop => .error stop
    else .error .misuse

/-- Reads an option of one word without a value. -/
def readWord (level : Level) (given : Given) (word : String) : Except Stop Given :=
  if word = "short-circuit" then given.withShortCircuit
  else if word = "help" then .error (.instead .help)
  else if word = "version" ∧ level = .top then .error (.instead .version)
  else if word = "spans" ∧ level = .parse then given.withSpans
  else .error .misuse

/-- The kinds of arguments. -/
inductive Shape where
  /-- `--`. -/
  | onlyFiles
  /-- An option of one word with its value, or without. -/
  | word (name : String) (value? : Option String)
  /-- Options of one letter each. -/
  | letters (list : List Char)
  | plain
  deriving DecidableEq, Repr

/-- The kind of an argument. A dash alone is a file. -/
def Shape.ofText (text : String) : Shape :=
  match text.toList with
  | ['-', '-'] => .onlyFiles
  | '-' :: '-' :: rest =>
    let name := String.ofList (rest.takeWhile (· != '='))
    match rest.dropWhile (· != '=') with
    | [] => .word name none
    | _ :: value => .word name (some (String.ofList value))
  | ['-'] => .plain
  | '-' :: rest => .letters rest
  | _ => .plain

/-- The word of the option for the bound on calls. -/
def depthWord : String := "max-call-depth"

/-- Reads the files that follow `--`. -/
def readFiles (level : Level) (given : Given) : List String → Except Stop Given
  | [] => .ok given
  | file :: others =>
    match given.withFile level file with
    | .ok given => readFiles level given others
    | .error stop => .error stop

/-- Reads the arguments of one level, up to the first one that names a command if the level is the
top, and gives that one with those after it. -/
def readLevel (level : Level) (given : Given) : List String → Except Stop (Given × List String)
  | [] => .ok (given, [])
  | argument :: others =>
    match Shape.ofText argument with
    | .onlyFiles => (readFiles level given others).map fun given => (given, [])
    | .letters list =>
      match readLetters level given list with
      | .ok given => readLevel level given others
      | .error stop => .error stop
    | .word name (some value) =>
      if name = depthWord then
        match given.withDepth value with
        | .ok given => readLevel level given others
        | .error stop => .error stop
      else .error .misuse
    | .word name none =>
      if name = depthWord then
        match others with
        | [] => .error .misuse
        | value :: others =>
          match given.withDepth value with
          | .ok given => readLevel level given others
          | .error stop => .error stop
      else
        match readWord level given name with
        | .ok given => readLevel level given others
        | .error stop => .error stop
    | .plain =>
      if level = .top then .ok (given, argument :: others)
      else
        match given.withFile level argument with
        | .ok given => readLevel level given others
        | .error stop => .error stop

/-- The settings that two levels ask for. -/
def settings (outer inner : Given) : Settings :=
  ⟨(inner.maxCallDepth? <|> outer.maxCallDepth?).getD Settings.default.maxCallDepth,
    inner.shortCircuit || outer.shortCircuit⟩

/-- The command with the files that were given to it. -/
def makeCommand (level : Level) (given : Given) : Except Stop Command :=
  match level, given.files with
  | .run, [file] => .ok (.run file)
  | .parse, file :: others => .ok (.parse (file :: others) given.spans)
  | .interact, [] => .ok .interact
  | _, _ => .error .misuse

/-- The level of the command of a given name. -/
def levelOf? (name : String) : Option Level :=
  if name = "run" then some .run
  else if name = "parse" then some .parse
  else if name = "repl" then some .interact
  else none

/-- Reads the arguments after the name of a command. -/
def readCommand (outer : Given) (level : Level) (arguments : List String) :
    Except Stop Request :=
  match readLevel level .nothing arguments with
  | .error stop => .error stop
  | .ok (inner, _) =>
    (makeCommand level inner).map fun command => .execute command (settings outer inner)

/-- The name of the command that explains the others. -/
def helpName : String := "help"

/-- Reads what help is asked for: for all commands, or for one, which has no parts to ask for. -/
def readHelp : List String → Except Stop Request
  | [] => .ok .help
  | [name] => if name = helpName ∨ (levelOf? name).isSome then .ok .help else .error .misuse
  | _ => .error .misuse

/-- Reads all arguments. Without a command, the program starts a dialog. -/
def readAll (arguments : List String) : Except Stop Request :=
  match readLevel .top .nothing arguments with
  | .error stop => .error stop
  | .ok (outer, []) => .ok (.execute .interact (settings outer .nothing))
  | .ok (outer, name :: others) =>
    if name = helpName then readHelp others
    else
      match levelOf? name with
      | some level => readCommand outer level others
      | none => .error .misuse

/-- What the arguments ask for, if they are understood. -/
def request? (arguments : List String) : Option Request :=
  match readAll arguments with
  | .ok request => some request
  | .error (.instead request) => some request
  | .error .misuse => none

end Arguments

end Kestrel
