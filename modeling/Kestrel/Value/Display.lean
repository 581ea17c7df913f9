import Kestrel.Store

/-!
# Values as text

Containers show what they hold. A container that is met inside its own text is shown by an
ellipsis, so the text of a cyclic value is finite.
-/

namespace Kestrel

/-- The characters of a text value. -/
def TextValue.content (store : Store) : TextValue → String
  | .fixed text => text
  | .buffer ref => store.get ref

namespace Value

/-- Items between two marks. -/
private def enclose (opening closing : String) (items : List String) : String :=
  opening ++ ", ".intercalate items ++ closing

/-- The text of a value inside the containers `opened`, which are nested at most `depth` deep. -/
def reprWithin (store : Store) : Nat → List Value → Value → String
  | 0, _, _ => ""
  | depth + 1, opened, value =>
    let inside (item : Value) := reprWithin store depth (value :: opened) item
    match value with
    | number n => numberText n
    | text s => "\"" ++ s.content store ++ "\""
    | bool b => if b then "true" else "false"
    | nothing => "nothing"
    | error kind message => kind.name ++ ": " ++ message
    | array ref =>
      if value ∈ opened then "[...]"
      else enclose "[" "]" ((store.get ref).toList.map inside)
    | dictionary ref =>
      if value ∈ opened then "\x7b...\x7d"
      else enclose "\x7b" "\x7d"
        ((store.get ref).entries.map fun entry => "\"" ++ entry.1 ++ "\": " ++ inside entry.2)
    | struct ref => "<struct " ++ (store.get ref).name ++ ">"
    | object ref =>
      let instance_ := store.get ref
      let name := (store.get instance_.template).name
      if value ∈ opened then name ++ "\x7b...\x7d"
      else enclose (name ++ "\x7b") "\x7d"
        (instance_.fields.entries.map fun field => field.1 ++ ": " ++ inside field.2)
    | function ref => "<fn " ++ (store.get ref).displayName ++ ">"
    | native ref => "<native fn " ++ (store.get ref).name ++ ">"
    | exports ref => "<namespace " ++ (store.get ref).name ++ ">"

/-- How deep containers can be nested without one inside itself. -/
def nestingBound (store : Store) : Nat :=
  store.size .array + store.size .dictionary + store.size .object

/-- The text of a value as part of another one: text is quoted. -/
def repr (store : Store) (value : Value) : String :=
  reprWithin store (nestingBound store + 2) [] value

/-- The text of a value on its own: text is shown as it is. -/
def display (store : Store) : Value → String
  | text s => s.content store
  | value => value.repr store

end Value

end Kestrel
