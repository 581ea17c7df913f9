import Kestrel.Eval.Basic
import Kestrel.Proofs.OrderedMap
import Kestrel.Proofs.Scope
import Kestrel.Proofs.Store
import Mathlib.Data.List.Forall2

/-!
# Trees of scopes

Scopes are made inside one another from a root, and names are declared, bound, assigned to and
forgotten in any of them. What is told here of a tree of scopes follows from the changes alone:
which names a scope binds and in which order, to which values, and which scope on the path to the
root is the nearest one that binds a name. The main theorem says that reading, assigning and
declaring agree with this after every history, and that an assignment changes one binding of one
scope.
-/

namespace Kestrel

/-- What is done to a tree of scopes. The scopes have numbers in the order in which they were made,
and the root is number zero. -/
inductive ScopeChange where
  | child (place : Nat)
  | declare (place : Nat) (name : String) (value : Value)
  | bind (place : Nat) (name : String) (value : Value)
  | assign (place : Nat) (name : String) (value : Value)
  | clear (place : Nat)

namespace ScopeChange

/-- The number of scopes after some changes, of which the latest comes first. -/
def count : List ScopeChange → Nat
  | [] => 1
  | .child _ :: earlier => count earlier + 1
  | .declare .. :: earlier | .bind .. :: earlier | .assign .. :: earlier
  | .clear _ :: earlier => count earlier

/-- The scopes from a given one to the root. -/
def path : List ScopeChange → Nat → List Nat
  | [], place => [place]
  | .child outer :: earlier, place =>
    if place = count earlier then place :: path earlier outer else path earlier place
  | .declare .. :: earlier, place | .bind .. :: earlier, place | .assign .. :: earlier, place
  | .clear _ :: earlier, place => path earlier place

/-- The names that a scope binds, in the order of their first declaration since the scope was last
cleared. -/
def names (place : Nat) : List ScopeChange → List String
  | [] => []
  | .declare target name _ :: earlier | .bind target name _ :: earlier =>
    if place = target ∧ name ∉ names place earlier then names place earlier ++ [name]
    else names place earlier
  | .clear target :: earlier => if place = target then [] else names place earlier
  | .child _ :: earlier | .assign .. :: earlier => names place earlier

/-- The nearest scope on the path to the root that binds a name. -/
def nearest? (changes : List ScopeChange) (place : Nat) (name : String) : Option Nat :=
  (path changes place).find? fun outer => name ∈ names outer changes

/-- The value that a scope binds a name to: the one that was given last, unless the scope was
cleared since then. A declaration gives none to a name that the scope binds already, and an
assignment gives its value to the nearest scope that binds the name. -/
def value? (place : Nat) (name : String) : List ScopeChange → Option Value
  | [] => none
  | .declare target key value :: earlier =>
    if place = target ∧ name = key ∧ name ∉ names place earlier then some value
    else value? place name earlier
  | .bind target key value :: earlier =>
    if place = target ∧ name = key then some value else value? place name earlier
  | .assign target key value :: earlier =>
    if nearest? earlier target key = some place ∧ name = key then some value
    else value? place name earlier
  | .clear target :: earlier => if place = target then none else value? place name earlier
  | .child _ :: earlier => value? place name earlier

end ScopeChange

/-- The store after an operation; a refused one leaves the store as it is. -/
def Store.afterwards (store : Store) (outcome : Except Cause Store) : Store :=
  outcome.toOption.getD store

/-- The scopes of a tree by their numbers, and the store, after some changes to the tree. The latest
change comes first. -/
inductive ScopeTree : List ScopeChange → List Scope → Store → Prop
  | root (store : Store) (module : String) (imports : Ref .imports) :
      ScopeTree [] [(Scope.root store module imports).1] (Scope.root store module imports).2
  | child {changes : List ScopeChange} {scopes : List Scope} {store : Store} {place : Nat}
      {scope : Scope} (htree : ScopeTree changes scopes store)
      (hthere : scopes[place]? = some scope) :
      ScopeTree (.child place :: changes) (scopes ++ [(scope.child store).1]) (scope.child store).2
  | declare {changes : List ScopeChange} {scopes : List Scope} {store : Store} {place : Nat}
      {scope : Scope} (htree : ScopeTree changes scopes store)
      (hthere : scopes[place]? = some scope) (name : String) (value : Value) :
      ScopeTree (.declare place name value :: changes) scopes
        (store.afterwards (scope.declare store name value))
  | bind {changes : List ScopeChange} {scopes : List Scope} {store : Store} {place : Nat}
      {scope : Scope} (htree : ScopeTree changes scopes store)
      (hthere : scopes[place]? = some scope) (name : String) (value : Value) :
      ScopeTree (.bind place name value :: changes) scopes (scope.bind store name value)
  | assign {changes : List ScopeChange} {scopes : List Scope} {store : Store} {place : Nat}
      {scope : Scope} (htree : ScopeTree changes scopes store)
      (hthere : scopes[place]? = some scope) (name : String) (value : Value) :
      ScopeTree (.assign place name value :: changes) scopes
        (store.afterwards (scope.assign store name value))
  | clear {changes : List ScopeChange} {scopes : List Scope} {store : Store} {place : Nat}
      {scope : Scope} (htree : ScopeTree changes scopes store)
      (hthere : scopes[place]? = some scope) :
      ScopeTree (.clear place :: changes) scopes (scope.clear store)

/-- Scopes and a store are what some changes made of a tree. -/
structure ScopeChange.Made (changes : List ScopeChange) (scopes : List Scope) (store : Store) :
    Prop where
  length : scopes.length = count changes
  /-- A scope knows the scopes on its path to the root. -/
  chain {place : Nat} {scope : Scope} : scopes[place]? = some scope →
    List.Forall₂ (fun number ref => ∃ outer, scopes[number]? = some outer ∧ outer.here = ref)
      (path changes place) (scope.here :: scope.outer)
  /-- Every scope has a cell of its own. -/
  apart {first second : Nat} {left right : Scope} : scopes[first]? = some left →
    scopes[second]? = some right → left.here = right.here → first = second
  live {place : Nat} {scope : Scope} : scopes[place]? = some scope →
    scope.here.index < store.size .scope
  keys {place : Nat} {scope : Scope} : scopes[place]? = some scope →
    (scope.bindings store).keys = names place changes
  get? {place : Nat} {scope : Scope} : scopes[place]? = some scope →
    ∀ name, (scope.bindings store).get? name = value? place name changes
  /-- A scope that is not yet made binds nothing. -/
  unmade {place : Nat} : scopes.length ≤ place →
    names place changes = [] ∧ ∀ name, value? place name changes = none

namespace ScopeChange

variable {changes later : List ScopeChange} {scopes : List Scope} {store : Store} {place : Nat}
  {scope : Scope} {name : String} {value : Value}

namespace Made

/-- A scope binds the names that it has a value for. -/
theorem isSome_value?_iff (hmade : Made changes scopes store)
    (hthere : scopes[place]? = some scope) :
    (value? place name changes).isSome ↔ name ∈ names place changes := by
  rw [← hmade.get? hthere, ← hmade.keys hthere]
  exact OrderedMap.contains_iff

/-- The search for a name in the cells of a chain finds the nearest scope that binds it. -/
theorem binderAmong (hmade : Made changes scopes store) (name : String) {numbers : List Nat}
    {refs : List (Ref .scope)}
    (hchain : List.Forall₂ (fun number ref => ∃ outer, scopes[number]? = some outer ∧
      outer.here = ref) numbers refs) :
    match numbers.find? fun outer => name ∈ names outer changes with
    | none => Scope.binderAmong store name refs = none
    | some binder => ∃ outer, scopes[binder]? = some outer ∧ name ∈ names binder changes ∧
        Scope.binderAmong store name refs = some outer.here := by
  induction hchain with
  | nil => rfl
  | @cons number ref numbers refs hfirst _ ih =>
    obtain ⟨outer, hthere, rfl⟩ := hfirst
    have hbinds : (store.get outer.here).contains name = true ↔ name ∈ names number changes := by
      rw [← hmade.keys hthere]
      exact OrderedMap.contains_iff
    by_cases hname : name ∈ names number changes
    · have hfirst := decide_eq_true hname
      simp only [List.find?_cons, hfirst]
      exact ⟨outer, hthere, hname, by rw [Scope.binderAmong, if_pos (hbinds.mpr hname)]⟩
    · have hfirst := decide_eq_false hname
      simp only [List.find?_cons, hfirst]
      rw [Scope.binderAmong, if_neg (mt hbinds.mp hname)]
      exact ih

/-- The binder of a name is the nearest scope on the path to the root that binds it. -/
theorem binder? (hmade : Made changes scopes store) (hthere : scopes[place]? = some scope)
    (name : String) :
    match nearest? changes place name with
    | none => scope.binder? store name = none
    | some binder => ∃ outer, scopes[binder]? = some outer ∧ name ∈ names binder changes ∧
        scope.binder? store name = some outer.here :=
  hmade.binderAmong name (hmade.chain hthere)

/-- A name that the scope itself binds cannot be declared. -/
theorem declare_of_mem (hmade : Made changes scopes store) (hthere : scopes[place]? = some scope)
    (hname : name ∈ names place changes) :
    scope.declare store name value = .error (.alreadyDeclared name) := by
  have hlocal : scope.containsLocal store name = true :=
    OrderedMap.contains_iff.mpr ((hmade.keys hthere).symm ▸ hname)
  rw [Scope.declare, Scope.declarable, if_pos hlocal]
  rfl

/-- A name that the scope itself does not bind is bound by a declaration. -/
theorem declare_of_notMem (hmade : Made changes scopes store) (hthere : scopes[place]? = some scope)
    (hname : name ∉ names place changes) :
    scope.declare store name value = .ok (scope.bind store name value) := by
  have hlocal : ¬ scope.containsLocal store name = true := fun hcontains =>
    hname (hmade.keys hthere ▸ OrderedMap.contains_iff.mp hcontains)
  rw [Scope.declare, Scope.declarable, if_neg hlocal]
  rfl

/-- A name that no scope on the path binds cannot be assigned to. -/
theorem assign_of_none (hmade : Made changes scopes store) (hthere : scopes[place]? = some scope)
    (hnearest : nearest? changes place name = none) :
    scope.assign store name value = .error (.assignedBeforeDeclared name) := by
  have hbinder := hmade.binder? hthere name
  rw [hnearest] at hbinder
  rw [Scope.assign, Scope.assignable, hbinder]
  rfl

/-- An assignment writes to the nearest scope on the path that binds the name. -/
theorem assign_of_some (hmade : Made changes scopes store) (hthere : scopes[place]? = some scope)
    {binder : Nat} (hnearest : nearest? changes place name = some binder) (value : Value) :
    ∃ outer, scopes[binder]? = some outer ∧ name ∈ names binder changes ∧
      scope.assign store name value = .ok (Scope.rebind store outer.here name value) := by
  have hbinder := hmade.binder? hthere name
  rw [hnearest] at hbinder
  obtain ⟨outer, houter, hbinds, hbinder⟩ := hbinder
  refine ⟨outer, houter, hbinds, ?_⟩
  rw [Scope.assign, Scope.assignable, hbinder]
  rfl

/-- Later changes that made no new scope and gave no scope another binding. -/
theorem same (hmade : Made changes scopes store) (hcount : count later = count changes)
    (hpath : path later = path changes)
    (hsame : ∀ number, names number later = names number changes ∧
      ∀ name, value? number name later = value? number name changes) :
    Made later scopes store where
  unmade {number} hnumber := by
    rw [(hsame number).1]
    exact ⟨(hmade.unmade hnumber).1, fun name =>
      ((hsame number).2 name).trans ((hmade.unmade hnumber).2 name)⟩
  length := hmade.length.trans hcount.symm
  chain hthere := by
    rw [hpath]
    exact hmade.chain hthere
  apart := hmade.apart
  live := hmade.live
  keys hthere := (hmade.keys hthere).trans (hsame _).1.symm
  get? hthere name := (hmade.get? hthere name).trans ((hsame _).2 name).symm

/-- Later changes that made no new scope and changed the bindings of one scope. -/
theorem modify (hmade : Made changes scopes store) (hthere : scopes[place]? = some scope)
    (hcount : count later = count changes) (hpath : path later = path changes)
    (f : OrderedMap Value → OrderedMap Value)
    (hhere : (f (scope.bindings store)).keys = names place later ∧
      ∀ name, (f (scope.bindings store)).get? name = value? place name later)
    (hothers : ∀ number, number ≠ place → names number later = names number changes ∧
      ∀ name, value? number name later = value? number name changes) :
    Made later scopes (store.modify scope.here f) := by
  have hself : scope.bindings (store.modify scope.here f) = f (scope.bindings store) :=
    Store.get_modify_self (hmade.live hthere) f
  have hother {number : Nat} {other : Scope} (hne : number ≠ place)
      (hnumber : scopes[number]? = some other) :
      other.bindings (store.modify scope.here f) = other.bindings store := by
    apply Store.get_modify_of_ne
    intro _ hindex
    exact hne (hmade.apart hnumber hthere (Ref.eq_of_index_eq hindex))
  constructor
  case length => exact hmade.length.trans hcount.symm
  case chain =>
    intro number other hnumber
    rw [hpath]
    exact hmade.chain hnumber
  case apart => exact hmade.apart
  case live =>
    intro number other hnumber
    rw [Store.size_modify]
    exact hmade.live hnumber
  case keys =>
    intro number other hnumber
    by_cases hplace : number = place
    · subst hplace
      cases hthere.symm.trans hnumber
      rw [hself]
      exact hhere.1
    · rw [hother hplace hnumber, (hothers _ hplace).1]
      exact hmade.keys hnumber
  case get? =>
    intro number other hnumber key
    by_cases hplace : number = place
    · subst hplace
      cases hthere.symm.trans hnumber
      rw [hself]
      exact hhere.2 key
    · rw [hother hplace hnumber, (hothers _ hplace).2]
      exact hmade.get? hnumber key
  case unmade =>
    intro number hnumber
    have hplace : number ≠ place := by
      rintro rfl
      exact absurd (List.getElem?_eq_none hnumber) (by simp [hthere])
    rw [(hothers number hplace).1]
    exact ⟨(hmade.unmade hnumber).1, fun key =>
      ((hothers number hplace).2 key).trans ((hmade.unmade hnumber).2 key)⟩

/-- A new scope has a cell of its own that binds nothing, and knows the path of the scope that it
was made in. -/
theorem child (hmade : Made changes scopes store) (hthere : scopes[place]? = some scope) :
    Made (.child place :: changes) (scopes ++ [(scope.child store).1]) (scope.child store).2 := by
  have hcases {number : Nat} {other : Scope}
      (hnumber : (scopes ++ [(scope.child store).1])[number]? = some other) :
      (scopes[number]? = some other ∧ number ≠ count changes) ∨
        number = count changes ∧ other = (scope.child store).1 := by
    rw [← hmade.length]
    rw [List.getElem?_append] at hnumber
    split at hnumber
    · next hlt => exact .inl ⟨hnumber, Nat.ne_of_lt hlt⟩
    · obtain ⟨hzero, hother⟩ := List.getElem?_eq_some_iff.mp hnumber
      rw [List.length_singleton] at hzero
      exact .inr ⟨by omega, by simpa using hother.symm⟩
  have hkept {number : Nat} {other : Scope} (hnumber : scopes[number]? = some other) :
      (scopes ++ [(scope.child store).1])[number]? = some other :=
    (List.getElem?_append_left (List.getElem?_eq_some_iff.mp hnumber).1).trans hnumber
  have hold {number : Nat} {other : Scope} (hnumber : scopes[number]? = some other) :
      other.bindings (scope.child store).2 = other.bindings store :=
    Store.get_add_of_lt (hmade.live hnumber) _
  have hnew : (scope.child store).1.bindings (scope.child store).2 = .empty :=
    Store.get_add_next _ _ _
  have hunmade := hmade.unmade (Nat.le_of_eq hmade.length)
  have hsize : (scope.child store).2.size .scope = store.size .scope + 1 := Store.size_add _ _ _
  have hchain' {numbers : List Nat} {refs : List (Ref .scope)}
      (hchain : List.Forall₂ (fun number ref =>
        ∃ outer, scopes[number]? = some outer ∧ outer.here = ref) numbers refs) :
      List.Forall₂ (fun number ref => ∃ outer, (scopes ++ [(scope.child store).1])[number]? =
        some outer ∧ outer.here = ref) numbers refs :=
    hchain.imp fun _ _ ⟨outer, hthere', hhere⟩ => ⟨outer, hkept hthere', hhere⟩
  constructor
  case length => simp [hmade.length, count]
  case chain =>
    intro number other hnumber
    rcases hcases hnumber with ⟨hthere', hne⟩ | ⟨rfl, rfl⟩
    · rw [path, if_neg hne]
      exact hchain' (hmade.chain hthere')
    · rw [path, if_pos rfl]
      exact .cons ⟨_, hnumber, rfl⟩ (hchain' (hmade.chain hthere))
  case apart =>
    intro first second left right hleft hright hhere
    rcases hcases hleft with ⟨hfirst, -⟩ | ⟨rfl, rfl⟩ <;>
      rcases hcases hright with ⟨hsecond, -⟩ | ⟨rfl, rfl⟩
    · exact hmade.apart hfirst hsecond hhere
    · have hlt := hmade.live hfirst
      rw [hhere] at hlt
      exact absurd hlt (Nat.lt_irrefl _)
    · have hlt := hmade.live hsecond
      rw [← hhere] at hlt
      exact absurd hlt (Nat.lt_irrefl _)
    · rfl
  case live =>
    intro number other hnumber
    rw [hsize]
    rcases hcases hnumber with ⟨hthere', -⟩ | ⟨-, rfl⟩
    · exact Nat.lt_succ_of_lt (hmade.live hthere')
    · exact Nat.lt_succ_self _
  case keys =>
    intro number other hnumber
    rcases hcases hnumber with ⟨hthere', -⟩ | ⟨rfl, rfl⟩
    · rw [hold hthere']
      exact hmade.keys hthere'
    · rw [hnew]
      exact hunmade.1.symm
  case get? =>
    intro number other hnumber key
    rcases hcases hnumber with ⟨hthere', -⟩ | ⟨rfl, rfl⟩
    · rw [hold hthere']
      exact hmade.get? hthere' key
    · rw [hnew]
      exact (hunmade.2 key).symm
  case unmade =>
    intro number hnumber
    rw [List.length_append] at hnumber
    exact hmade.unmade (Nat.le_of_add_right_le hnumber)

/-- Writing a name is a change of one binding of a scope. -/
theorem insert (hmade : Made changes scopes store) (hthere : scopes[place]? = some scope)
    (name : String) (value : Value) (hcount : count later = count changes)
    (hpath : path later = path changes)
    (hnames : ∀ number, names number later =
      if number = place ∧ name ∉ names number changes then names number changes ++ [name]
      else names number changes)
    (hvalue : ∀ number key, value? number key later =
      if number = place ∧ key = name then some value else value? number key changes) :
    Made later scopes (Scope.rebind store scope.here name value) := by
  refine hmade.modify hthere hcount hpath _ ⟨?_, fun key => ?_⟩
    fun number hne => ⟨?_, fun key => ?_⟩
  · rw [OrderedMap.keys_insert, hmade.keys hthere, hnames]
    by_cases hname : name ∈ names place changes <;> simp [hname]
  · rw [OrderedMap.get?_insert, hmade.get? hthere, hvalue]
    simp
  · simp [hnames, hne]
  · simp [hvalue, hne]

/-- A name is bound whether it was bound or not. -/
theorem bind (hmade : Made changes scopes store) (hthere : scopes[place]? = some scope)
    (name : String) (value : Value) :
    Made (.bind place name value :: changes) scopes (scope.bind store name value) := by
  exact hmade.insert hthere name value rfl rfl (fun _ => rfl) fun _ _ => rfl

/-- A name is declared unless it is bound. -/
theorem declare (hmade : Made changes scopes store) (hthere : scopes[place]? = some scope)
    (name : String) (value : Value) :
    Made (.declare place name value :: changes) scopes
      (store.afterwards (scope.declare store name value)) := by
  by_cases hname : name ∈ names place changes
  · rw [hmade.declare_of_mem hthere hname]
    refine hmade.same rfl rfl fun number => ⟨?_, fun key => ?_⟩
    · rw [names, if_neg]
      rintro ⟨rfl, hnew⟩
      exact hnew hname
    · rw [value?, if_neg]
      rintro ⟨rfl, rfl, hnew⟩
      exact hnew hname
  · rw [hmade.declare_of_notMem hthere hname]
    refine hmade.insert hthere name value rfl rfl (fun _ => rfl) fun number key => ?_
    rw [value?]
    refine ite_congr (propext ⟨?_, ?_⟩) (fun _ => rfl) fun _ => rfl
    · exact fun ⟨hnumber, hkey, _⟩ => ⟨hnumber, hkey⟩
    · rintro ⟨rfl, rfl⟩
      exact ⟨rfl, rfl, hname⟩

/-- A name gets a new value where it is bound nearest, if it is bound. -/
theorem assign (hmade : Made changes scopes store) (hthere : scopes[place]? = some scope)
    (name : String) (value : Value) :
    Made (.assign place name value :: changes) scopes
      (store.afterwards (scope.assign store name value)) := by
  cases hnearest : nearest? changes place name with
  | none =>
    rw [hmade.assign_of_none hthere hnearest]
    refine hmade.same rfl rfl fun number => ⟨rfl, fun key => ?_⟩
    rw [value?, if_neg]
    rintro ⟨hbinder, rfl⟩
    rw [hnearest] at hbinder
    cases hbinder
  | some binder =>
    obtain ⟨outer, houter, hbinds, hassigned⟩ := hmade.assign_of_some hthere hnearest value
    rw [hassigned]
    refine hmade.insert houter name value rfl rfl (fun number => ?_) fun number key => ?_
    · rw [names, if_neg]
      rintro ⟨rfl, hnew⟩
      exact hnew hbinds
    · simp only [value?, hnearest, Option.some.injEq, @eq_comm _ number binder]

/-- A scope that is cleared binds nothing. -/
theorem clear (hmade : Made changes scopes store) (hthere : scopes[place]? = some scope) :
    Made (.clear place :: changes) scopes (scope.clear store) := by
  refine @modify _ (.clear place :: changes) _ _ _ _ hmade hthere rfl rfl (fun _ => .empty)
    ⟨?_, fun name => ?_⟩ fun number hne => ⟨?_, fun name => ?_⟩
  · rw [names, if_pos rfl]
    rfl
  · rw [value?, if_pos rfl]
    rfl
  · rw [names, if_neg hne]
  · rw [value?, if_neg hne]

end Made

end ScopeChange

open ScopeChange in
/-- At the end of a history, the scopes and the store are what the changes made. -/
theorem ScopeTree.made {changes : List ScopeChange} {scopes : List Scope} {store : Store}
    (htree : ScopeTree changes scopes store) : Made changes scopes store := by
  induction htree with
  | root store module imports =>
    have hcases {number : Nat} {other : Scope}
        (hnumber : [(Scope.root store module imports).1][number]? = some other) :
        number = 0 ∧ other = (Scope.root store module imports).1 := by
      obtain ⟨hzero, hother⟩ := List.getElem?_eq_some_iff.mp hnumber
      rw [List.length_singleton] at hzero
      exact ⟨by omega, by simpa using hother.symm⟩
    have hnew : (Scope.root store module imports).1.bindings (Scope.root store module imports).2 =
        .empty := Store.get_add_next _ _ _
    constructor
    case length => rfl
    case chain =>
      intro number other hnumber
      obtain ⟨rfl, rfl⟩ := hcases hnumber
      exact .cons ⟨_, rfl, rfl⟩ .nil
    case apart =>
      intro first second left right hleft hright _
      rw [(hcases hleft).1, (hcases hright).1]
    case live =>
      intro number other hnumber
      obtain ⟨rfl, rfl⟩ := hcases hnumber
      exact store.next_lt_size_add .scope .empty
    case keys =>
      intro number other hnumber
      obtain ⟨rfl, rfl⟩ := hcases hnumber
      rw [hnew]
      rfl
    case get? =>
      intro number other hnumber name
      obtain ⟨rfl, rfl⟩ := hcases hnumber
      rw [hnew]
      rfl
    case unmade => exact fun _ => ⟨rfl, fun _ => rfl⟩
  | child htree hthere ih => exact ih.child hthere
  | declare htree hthere name value ih => exact ih.declare hthere name value
  | bind htree hthere name value ih => exact ih.bind hthere name value
  | assign htree hthere name value ih => exact ih.assign hthere name value
  | clear htree hthere ih => exact ih.clear hthere

end Kestrel
