import Kestrel.Run
import Kestrel.Text.Quoted

/-!
# Sessions

A session runs one source text after another in one module, so that later ones see the names of
earlier ones. It can also check what a source text evaluates to.
-/

namespace Kestrel

/-- A module that is kept between runs. -/
structure Session where
  host : Host
  scope : Scope
  state : State

/-- Why a step of a session fails. -/
inductive SessionError where
  | run (error : RunError)
  | assertionFailed (expected actual : String)
  | typeMismatch (expected actual : String)
  | variableNotFound (name : String)
  | unexpectedSuccess (expected actual : String)
  deriving Repr

/-- The message. -/
def SessionError.message : SessionError → String
  | run (.refused error) => "Parse error: " ++ error.message
  | run (.failed error) => "Runtime error: " ++ error.text
  | run (.unreadable path reason) =>
    "Internal error: " ++ (RunError.unreadable path reason).text
  | assertionFailed expected actual =>
    "Assertion failed: expected " ++ expected ++ ", but got " ++ actual
  | typeMismatch expected actual => "Type error: expected " ++ expected ++ ", got " ++ actual
  | variableNotFound name => "Variable not found: " ++ name
  | unexpectedSuccess expected actual =>
    "Expected " ++ expected ++ " error, but evaluation succeeded with " ++ actual

/-- A step of a session. -/
abbrev SessionStep (α : Type) := Run Session SessionError α

namespace Session

/-- The module of a session unless another one is asked for. -/
def defaultModule : String := "main.kes"

/-- A new session in a module of a given name. -/
def start (settings : Settings) (loader : Loader) (module : String) : Session :=
  let state := settings.initialState .empty
  let (scope, store) := Scope.ofMain state.store module
  ⟨settings.host loader, scope, { state with store }⟩

/-- The session after its printed text has been taken away. -/
def takeOutput (session : Session) : String × Session :=
  (session.state.output.text,
    { session with state := { session.state with output := .empty } })

/-- The session with modules from elsewhere. -/
def withLoader (session : Session) (loader : Loader) : Session :=
  { session with host := { session.host with loader } }

/-- The session without its names. -/
def clear (session : Session) : Session :=
  let store := session.scope.clear session.state.store
  { session with state := { session.state with store } }

/-- Runs a source text. -/
def run (session : Session) (source : String) : Run Session RunError Value :=
  (evaluateIn session.host source session.scope session.state).mapEnd fun outcome state =>
    (outcome, { session with state })

/-- Runs a source text as a step. -/
def evaluate (session : Session) (source : String) : SessionStep Value :=
  (session.run source).mapEnd fun outcome session => (outcome.mapError .run, session)

/-- The value of a name. -/
def lookup (session : Session) (name : String) : Except SessionError Value :=
  match session.scope.lookup session.state.store name with
  | .ok value => .ok value
  | .error _ => .error (.variableNotFound name)

/-- Runs a source text and checks its value. -/
def check (session : Session) (source : String)
    (test : Store → Value → Except SessionError Unit) : SessionStep Unit :=
  (session.evaluate source).mapEnd fun outcome session =>
    (outcome.bind (test session.state.store), session)

/-- The failure of a check for a value of another type. -/
def mismatch (expected : String) (store : Store) (actual : Value) : Except SessionError Unit :=
  .error (.typeMismatch expected (actual.typeName ++ " (" ++ actual.repr store ++ ")"))

/-- Checks that a source text evaluates to a number. -/
def assertNumber (session : Session) (source : String) (expected : Float) : SessionStep Unit :=
  session.check source fun store value =>
    match value with
    | .number actual =>
      if actual == expected then .ok ()
      else .error (.assertionFailed (NumberLayout.plain.format expected)
        (NumberLayout.plain.format actual))
    | other => mismatch "Number" store other

/-- Checks that a source text evaluates to a text. -/
def assertString (session : Session) (source expected : String) : SessionStep Unit :=
  session.check source fun store value =>
    match value with
    | .text text =>
      let actual := text.content store
      if actual = expected then .ok ()
      else .error (.assertionFailed (quoted expected) (quoted actual))
    | other => mismatch "String" store other

/-- Checks that a source text evaluates to a truth value. -/
def assertBool (session : Session) (source : String) (expected : Bool) : SessionStep Unit :=
  session.check source fun store value =>
    match value with
    | .bool actual =>
      if actual = expected then .ok ()
      else .error (.assertionFailed ((Value.bool expected).repr store)
        ((Value.bool actual).repr store))
    | other => mismatch "Bool" store other

/-- Checks that a source text evaluates to nothing. -/
def assertNothing (session : Session) (source : String) : SessionStep Unit :=
  session.check source fun store value =>
    match value with
    | .nothing => .ok ()
    | other => mismatch "Nothing" store other

/-- Checks what a source text evaluates to by the text of its value. -/
def assertDisplay (session : Session) (source expected : String) : SessionStep Unit :=
  session.check source fun store value =>
    let actual := value.display store
    if actual = expected then .ok () else .error (.assertionFailed expected actual)

/-- Checks that a source text fails with an error of some kind. -/
def assertError (session : Session) (source : String) (expected : ErrorKind) :
    SessionStep RuntimeError :=
  (session.run source).mapEnd fun outcome session =>
    let verdict : Except SessionError RuntimeError := match outcome with
      | .error (.failed error) =>
        if error.kind = expected then .ok error
        else .error (.assertionFailed expected.name error.text)
      | .error error => .error (.run error)
      | .ok value =>
        .error (.unexpectedSuccess expected.name (value.repr session.state.store))
    (verdict, session)

end Session

end Kestrel
