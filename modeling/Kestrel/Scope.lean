import Kestrel.Fault.Cause
import Kestrel.Store
import Kestrel.Text.Quoted

/-!
# Scopes

A name means what the nearest scope around it binds it to. Assigning changes that binding;
declaring adds one to the innermost scope.
-/

namespace Kestrel

namespace Scope

/-- The nearest of several scopes that binds a name. -/
def binderAmong (store : Store) (name : String) : List (Ref .scope) → Option (Ref .scope)
  | [] => none
  | ref :: others =>
    if (store.get ref).contains name then some ref else binderAmong store name others

/-- The nearest scope that binds a name. -/
def binder? (scope : Scope) (store : Store) (name : String) : Option (Ref .scope) :=
  binderAmong store name (scope.here :: scope.outer)

/-- What a name means. -/
def lookup (scope : Scope) (store : Store) (name : String) : Except Cause Value :=
  match (scope.binder? store name).bind fun ref => (store.get ref).get? name with
  | some value => .ok value
  | none => .error (.undefinedName name)

/-- Whether the innermost scope binds a name. -/
def containsLocal (scope : Scope) (store : Store) (name : String) : Bool :=
  (store.get scope.here).contains name

/-- The bindings of the innermost scope, in order. -/
def bindings (scope : Scope) (store : Store) : OrderedMap Value := store.get scope.here

/-- Binds a name in a scope of the store. -/
def rebind (store : Store) (ref : Ref .scope) (name : String) (value : Value) : Store :=
  store.modify ref fun (bindings : OrderedMap Value) => bindings.insert name value

/-- Binds a name in the innermost scope, whether it is bound there or not. -/
def bind (scope : Scope) (store : Store) (name : String) (value : Value) : Store :=
  rebind store scope.here name value

/-- A name can be declared unless the innermost scope binds it. -/
def declarable (scope : Scope) (store : Store) (name : String) : Except Cause Unit :=
  if scope.containsLocal store name then .error (.alreadyDeclared name) else .ok ()

/-- Binds a new name in the innermost scope. -/
def declare (scope : Scope) (store : Store) (name : String) (value : Value) :
    Except Cause Store :=
  (scope.declarable store name).map fun _ => scope.bind store name value

/-- The nearest scope that binds a name, for an assignment to it. -/
def assignable (scope : Scope) (store : Store) (name : String) : Except Cause (Ref .scope) :=
  match scope.binder? store name with
  | some ref => .ok ref
  | none => .error (.assignedBeforeDeclared name)

/-- Gives a new value to a name in the nearest scope that binds it. -/
def assign (scope : Scope) (store : Store) (name : String) (value : Value) :
    Except Cause Store :=
  (scope.assignable store name).map fun ref => rebind store ref name value

/-- Forgets all names of the innermost scope. -/
def clear (scope : Scope) (store : Store) : Store :=
  store.modify scope.here fun (_ : OrderedMap Value) => .empty

/-- The outermost scope of a module, with the imports that it notes its own in. Its cell is the next
one of the store. -/
def root (store : Store) (module : String) (imports : Ref .imports) : Scope × Store :=
  (⟨store.next .scope, [], module, imports⟩, store.add .scope .empty)

/-- A new scope inside another one. Its cell is the next one of the store. -/
def child (scope : Scope) (store : Store) : Scope × Store :=
  ({ scope with here := store.next .scope, outer := scope.here :: scope.outer },
    store.add .scope .empty)

/-- The scope around a scope. -/
def parent? (scope : Scope) : Option Scope :=
  match scope.outer with
  | [] => none
  | here :: outer => some { scope with here, outer }

/-- A scope at a glance: its module, its names and whether there is a scope around it. -/
def summary (scope : Scope) (store : Store) : String :=
  let names := ", ".intercalate ((scope.bindings store).keys.map quoted)
  "Environment \x7b module: " ++ quoted scope.module ++ ", names: [" ++ names ++
    "], has_parent: " ++ (if scope.parent?.isSome then "true" else "false") ++ " \x7d"

/-- Binds the names of functions, each to a new cell. -/
def bindBuiltins (scope : Scope) (store : Store) : List Builtin → Store
  | [] => store
  | function :: others =>
    let added := store.add .native (.builtin function)
    bindBuiltins scope (scope.bind added function.name (.native (store.next .native))) others

/-- The scope of a module: its own names, inside those that every module starts with. -/
def ofModule (store : Store) (module : String) (imports : Ref .imports) : Scope × Store :=
  match root store module imports with
  | (outermost, store) => outermost.child (outermost.bindBuiltins store Builtin.everywhere)

/-- The scope of a module that no other one imports, with no imports noted yet. -/
def ofMain (store : Store) (module : String) : Scope × Store :=
  ofModule (store.add .imports .empty) module (store.next .imports)

end Scope

end Kestrel
