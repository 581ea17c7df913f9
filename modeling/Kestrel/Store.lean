import Kestrel.Module.Graph
import Kestrel.Native.Names
import Kestrel.OrderedMap
import Kestrel.Syntax.Tree

/-!
# The store

The cells that values refer to. Cells are only ever added, so a reference keeps its meaning; what
a cell holds can change. Two references are the same thing exactly if they are equal.
-/

namespace Kestrel

/-- A place in the chain of scopes: the innermost scope, those around it from the inside out, and
the module that they belong to. -/
structure Scope where
  here : Ref .scope
  outer : List (Ref .scope)
  module : String
  imports : Ref .imports
  deriving DecidableEq, Repr, Inhabited

/-- A struct: its properties in order, and its methods. -/
structure StructTemplate where
  name : String
  properties : List String
  methods : OrderedMap (Ref .function)
  deriving Inhabited

/-- An instance of a struct. -/
structure Instance where
  template : Ref .struct
  fields : OrderedMap Value
  deriving Inhabited

/-- A function of the program, with the scope that it was made in. -/
structure Closure where
  /-- A function literal has no name. -/
  name? : Option String
  parameters : List String
  body : Block
  scope : Scope
  /-- The name of the struct that a method belongs to. -/
  owner? : Option String
  /-- The object that a method was reached through. -/
  receiver? : Option (Ref .object)
  deriving Inhabited

/-- The name of a function in frames and in text. -/
def Closure.displayName (closure : Closure) : String :=
  let name := closure.name?.getD "<anonymous>"
  match closure.owner? with
  | some owner => owner ++ "." ++ name
  | none => name

/-- The names that a module or a library offers. -/
structure Exports where
  name : String
  members : OrderedMap Value
  deriving Inhabited

/-- What a cell of each kind holds. -/
abbrev CellKind.Content : CellKind → Type
  | .scope => OrderedMap Value
  | .array => Array Value
  | .dictionary => OrderedMap Value
  | .buffer => String
  | .struct => StructTemplate
  | .object => Instance
  | .function => Closure
  | .native => Native
  | .exports => Exports
  | .imports => ImportGraph

/-- What a reference to no cell would stand for. -/
def CellKind.blank : (kind : CellKind) → kind.Content
  | .scope => .empty
  | .array => #[]
  | .dictionary => .empty
  | .buffer => ""
  | .struct => default
  | .object => default
  | .function => default
  | .native => default
  | .exports => default
  | .imports => .empty

/-- All cells, by kind. -/
structure Store where
  scopes : Array (OrderedMap Value)
  arrays : Array (Array Value)
  dictionaries : Array (OrderedMap Value)
  buffers : Array String
  structs : Array StructTemplate
  objects : Array Instance
  functions : Array Closure
  natives : Array Native
  namespaces : Array Exports
  importGraphs : Array ImportGraph
  deriving Inhabited

namespace Store

/-- A store without cells. -/
def empty : Store := ⟨#[], #[], #[], #[], #[], #[], #[], #[], #[], #[]⟩

/-- The cells of one kind. -/
def table (store : Store) : (kind : CellKind) → Array kind.Content
  | .scope => store.scopes
  | .array => store.arrays
  | .dictionary => store.dictionaries
  | .buffer => store.buffers
  | .struct => store.structs
  | .object => store.objects
  | .function => store.functions
  | .native => store.natives
  | .exports => store.namespaces
  | .imports => store.importGraphs

/-- Changes the cells of one kind. -/
@[inline] def mapTable (store : Store) :
    (kind : CellKind) → (Array kind.Content → Array kind.Content) → Store
  | .scope, f => { store with scopes := f store.scopes }
  | .array, f => { store with arrays := f store.arrays }
  | .dictionary, f => { store with dictionaries := f store.dictionaries }
  | .buffer, f => { store with buffers := f store.buffers }
  | .struct, f => { store with structs := f store.structs }
  | .object, f => { store with objects := f store.objects }
  | .function, f => { store with functions := f store.functions }
  | .native, f => { store with natives := f store.natives }
  | .exports, f => { store with namespaces := f store.namespaces }
  | .imports, f => { store with importGraphs := f store.importGraphs }

/-- The number of cells of a kind. -/
def size (store : Store) (kind : CellKind) : Nat := (store.table kind).size

/-- What a cell holds. -/
def get (store : Store) {kind : CellKind} (ref : Ref kind) : kind.Content :=
  (store.table kind)[ref.index]?.getD kind.blank

/-- Changes what a cell holds. -/
@[inline] def modify (store : Store) {kind : CellKind} (ref : Ref kind)
    (f : kind.Content → kind.Content) : Store :=
  store.mapTable kind fun cells => cells.modify ref.index f

/-- The reference that the next new cell of a kind will get. -/
def next (store : Store) (kind : CellKind) : Ref kind := ⟨store.size kind⟩

/-- Adds a cell. Its reference is `next`. -/
@[inline] def add (store : Store) (kind : CellKind) (content : kind.Content) : Store :=
  store.mapTable kind fun cells => cells.push content

end Store

end Kestrel
