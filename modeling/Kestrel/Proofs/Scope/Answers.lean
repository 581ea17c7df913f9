import Kestrel.Proofs.Native.Failure
import Kestrel.Proofs.Scope.Tree

/-!
# What scopes answer

A scope is asked what a name means, which names it binds itself, and whether a name can be declared
or assigned to. The main theorem says that after every history of a tree of scopes all of these
agree: the nearest scope on the path to the root that binds a name is the one that is read and the
one that an assignment writes to.
-/

namespace Kestrel

open ScopeChange

/-- What a name means in a scope after some changes: what the nearest scope that binds it binds it
to. -/
def ScopeChange.meaning? (changes : List ScopeChange) (place : Nat) (name : String) :
    Option Value :=
  (nearest? changes place name).bind fun binder => value? binder name changes

/-- A scope of a tree answers, in whatever way it is asked, as the changes to the tree say. -/
structure ScopeAnswers (changes : List ScopeChange) (scopes : List Scope) (store : Store)
    (place : Nat) (scope : Scope) : Prop where
  /-- A scope lists each of its names once, in the order of their first declaration since the scope
  was last cleared. -/
  listed : (scope.bindings store).keys = names place changes ∧ (names place changes).Nodup
  /-- A scope binds its names, and no others, to the values that they were given last. -/
  bound (name : String) : (scope.bindings store).get? name = value? place name changes ∧
    ((value? place name changes).isSome ↔ name ∈ names place changes)
  /-- A name means what the nearest scope that binds it binds it to. -/
  lookup_ok (name : String) (value : Value) :
    scope.lookup store name = .ok value ↔ meaning? changes place name = some value
  /-- A name means nothing if no scope on the path to the root binds it, and only then. -/
  lookup_error (name : String) (cause : Cause) :
    scope.lookup store name = .error cause ↔
      cause = .undefinedName name ∧ ∀ outer ∈ path changes place, name ∉ names outer changes
  /-- A name can be declared unless the scope itself binds it. A refused declaration changes
  nothing. -/
  declare_error (name : String) (value : Value) (cause : Cause) :
    scope.declare store name value = .error cause ↔
      cause = .alreadyDeclared name ∧ name ∈ names place changes
  declare_refused (name : String) (value : Value) (cause : Cause) (state : State) :
    state.store = store → scope.declare store name value = .error cause →
      Eval.declareName scope name value state = .interrupted (.error (.ofCause cause)) state
  /-- A declared name is a new last one of the scope; no other scope is changed. -/
  declare_ok (name : String) (value : Value) (after : Store) :
    scope.declare store name value = .ok after → ∀ (number : Nat) (other : Scope),
      scopes[number]? = some other → (other.bindings after).entries =
        if number = place then (other.bindings store).entries ++ [(name, value)]
        else (other.bindings store).entries
  /-- A name can be assigned to if it means something, and only then. A refused assignment changes
  nothing. -/
  assign_error (name : String) (value : Value) :
    (∃ cause, scope.assign store name value = .error cause) ↔
      ∃ cause, scope.lookup store name = .error cause
  assign_refused (name : String) (value : Value) (cause : Cause) (state : State) :
    state.store = store → scope.assign store name value = .error cause →
      Eval.assignName scope name value state = .interrupted (.error (.ofCause cause)) state
  /-- An assignment changes one binding of the nearest scope that binds the name. So it changes what
  the name means in those scopes for which this is the nearest one, and nothing else. -/
  assign_ok (name : String) (value : Value) (after : Store) :
    scope.assign store name value = .ok after →
      ∃ binder, nearest? changes place name = some binder ∧
        ∀ (number : Nat) (other : Scope), scopes[number]? = some other →
          (other.bindings after).keys = (other.bindings store).keys ∧
          (∀ key, (other.bindings after).get? key =
            if number = binder ∧ key = name then some value
            else (other.bindings store).get? key) ∧
          ∀ key, other.lookup after key =
            if nearest? changes number key = some binder ∧ key = name then .ok value
            else other.lookup store key

section Refused

variable {scope : Scope} {state : State} {name : String} {value : Value} {cause : Cause}

/-- A program goes on as it was if a declaration is refused. -/
theorem declareName_of_error (hrefused : scope.declare state.store name value = .error cause) :
    Eval.declareName scope name value state = .interrupted (.error (.ofCause cause)) state := by
  unfold Scope.declare at hrefused
  cases hdeclarable : scope.declarable state.store name with
  | ok _ =>
    rw [hdeclarable] at hrefused
    cases hrefused
  | error cause =>
    rw [hdeclarable] at hrefused
    cases hrefused
    exact Eval.bind_of_interrupted (Eval.viewOrFail_of_error hdeclarable) _

/-- A program goes on as it was if an assignment is refused. -/
theorem assignName_of_error (hrefused : scope.assign state.store name value = .error cause) :
    Eval.assignName scope name value state = .interrupted (.error (.ofCause cause)) state := by
  unfold Scope.assign at hrefused
  cases hassignable : scope.assignable state.store name with
  | ok _ =>
    rw [hassignable] at hrefused
    cases hrefused
  | error cause =>
    rw [hassignable] at hrefused
    cases hrefused
    exact Eval.bind_of_interrupted (Eval.viewOrFail_of_error hassignable) _

end Refused

section Answers

variable {changes : List ScopeChange} {scopes : List Scope} {store : Store} {place : Nat}
  {scope : Scope}

namespace ScopeChange.Made

variable (hmade : Made changes scopes store) (hthere : scopes[place]? = some scope)

include hmade hthere

/-- A name has no nearest binder if no scope on the path binds it, and else it means something. -/
theorem lookup (name : String) :
    scope.lookup store name =
      (meaning? changes place name).elim (.error (.undefinedName name)) .ok := by
  have hbinder := hmade.binder? hthere name
  unfold meaning? Scope.lookup
  cases hnearest : nearest? changes place name with
  | none =>
    rw [hnearest] at hbinder
    rw [hbinder]
    rfl
  | some binder =>
    rw [hnearest] at hbinder
    obtain ⟨outer, houter, -, hbinder⟩ := hbinder
    have hvalue : OrderedMap.get? (store.get outer.here) name = value? binder name changes :=
      hmade.get? houter name
    rw [hbinder, Option.bind_some, Option.bind_some, hvalue]
    cases value? binder name changes <;> rfl

/-- A name has no meaning exactly where none of the scopes around has it. -/
theorem meaning?_eq_none_iff {name : String} :
    meaning? changes place name = none ↔
      ∀ outer ∈ path changes place, name ∉ names outer changes := by
  have hbinder := hmade.binder? hthere name
  unfold meaning?
  constructor
  · intro hnone
    cases hnearest : nearest? changes place name with
    | none => simpa [nearest?] using hnearest
    | some binder =>
      rw [hnearest] at hbinder hnone
      obtain ⟨outer, houter, hname, -⟩ := hbinder
      have hvalue := (hmade.isSome_value?_iff houter).mpr hname
      rw [Option.bind_some] at hnone
      rw [hnone] at hvalue
      cases hvalue
  · intro hunbound
    have hnearest : nearest? changes place name = none := by simpa [nearest?] using hunbound
    rw [hnearest]
    rfl

end ScopeChange.Made

/-- However scopes were made inside one another, and whatever was declared, bound, assigned and
cleared in them: every scope of the tree answers as the changes say. -/
theorem scopes_answer_as_changed (htree : ScopeTree changes scopes store)
    (hthere : scopes[place]? = some scope) : ScopeAnswers changes scopes store place scope := by
  have hmade := htree.made
  have hlookup := hmade.lookup hthere
  constructor
  case listed =>
    rw [← hmade.keys hthere]
    exact ⟨rfl, (scope.bindings store).nodup_keys⟩
  case bound => exact fun name => ⟨hmade.get? hthere name, hmade.isSome_value?_iff hthere⟩
  case lookup_ok =>
    intro name value
    rw [hlookup]
    cases meaning? changes place name <;> simp
  case lookup_error =>
    intro name cause
    rw [hlookup, ← hmade.meaning?_eq_none_iff hthere]
    cases meaning? changes place name <;> simp [eq_comm]
  case declare_error =>
    intro name value cause
    by_cases hname : name ∈ names place changes
    · rw [hmade.declare_of_mem hthere hname]
      simp [hname, eq_comm]
    · rw [hmade.declare_of_notMem hthere hname]
      simp [hname]
  case declare_refused =>
    rintro name value cause state rfl hrefused
    exact declareName_of_error hrefused
  case declare_ok =>
    intro name value after hdeclared number other hnumber
    by_cases hname : name ∈ names place changes
    · rw [hmade.declare_of_mem hthere hname] at hdeclared
      cases hdeclared
    · rw [hmade.declare_of_notMem hthere hname] at hdeclared
      cases hdeclared
      by_cases hplace : number = place
      · subst hplace
        cases hthere.symm.trans hnumber
        have hself : scope.bindings (scope.bind store name value) =
            (scope.bindings store).insert name value := Store.get_modify_self (hmade.live hthere) _
        rw [if_pos rfl, hself, OrderedMap.entries_insert, hmade.keys hthere, if_neg hname]
      · have hother : other.bindings (scope.bind store name value) = other.bindings store := by
          apply Store.get_modify_of_ne
          intro _ hindex
          exact hplace (hmade.apart hnumber hthere (Ref.eq_of_index_eq hindex))
        rw [if_neg hplace, hother]
  case assign_error =>
    intro name value
    rw [hlookup]
    cases hnearest : nearest? changes place name with
    | none => simp [hmade.assign_of_none hthere hnearest, meaning?, hnearest]
    | some binder =>
      obtain ⟨outer, houter, hbinds, hassigned⟩ := hmade.assign_of_some hthere hnearest value
      obtain ⟨given, hgiven⟩ :=
        Option.isSome_iff_exists.mp ((hmade.isSome_value?_iff houter).mpr hbinds)
      simp [hassigned, meaning?, hnearest, hgiven]
  case assign_refused =>
    rintro name value cause state rfl hrefused
    exact assignName_of_error hrefused
  case assign_ok =>
    intro name value after hassigned
    cases hnearest : nearest? changes place name with
    | none =>
      rw [hmade.assign_of_none hthere hnearest] at hassigned
      cases hassigned
    | some binder =>
      have hlater := hmade.assign hthere name value
      rw [hassigned] at hlater
      change Made _ scopes after at hlater
      have hvalue (number : Nat) (key : String) :
          value? number key (.assign place name value :: changes) =
            if number = binder ∧ key = name then some value else value? number key changes := by
        simp only [value?, hnearest, Option.some.injEq, @eq_comm _ number binder]
      refine ⟨binder, rfl, fun number other hnumber => ⟨?_, fun key => ?_, fun key => ?_⟩⟩
      · exact (hlater.keys hnumber).trans (hmade.keys hnumber).symm
      · rw [hmade.get? hnumber, ← hvalue]
        exact hlater.get? hnumber key
      · have hmeaning : meaning? (.assign place name value :: changes) number key =
            (nearest? changes number key).bind fun outer =>
              value? outer key (.assign place name value :: changes) := rfl
        rw [hmade.lookup hnumber, hlater.lookup hnumber, hmeaning]
        unfold meaning?
        cases hother : nearest? changes number key with
        | none => simp
        | some outer =>
          rw [Option.bind_some, Option.bind_some, hvalue]
          by_cases hsame : outer = binder ∧ key = name
          · rw [if_pos hsame, if_pos (by simpa using hsame), Option.elim_some]
          · rw [if_neg hsame, if_neg (by simpa using hsame)]

/-- A name of two scopes that is assigned to from a third one inside them gets its new value in the
inner of the two. -/
theorem shadowed_name_assigned_nearest :
    ∃ scopes store outermost innermost,
      ScopeTree [.assign 2 "x" .nothing, .child 1, .declare 1 "x" (.bool false), .child 0,
        .declare 0 "x" (.bool true)] scopes store ∧
      scopes[0]? = some outermost ∧ scopes[2]? = some innermost ∧
      innermost.lookup store "x" = .ok .nothing ∧
      outermost.lookup store "x" = .ok (.bool true) := by
  obtain ⟨scopes, store, htree, hlength⟩ : ∃ scopes store,
      ScopeTree [.assign 2 "x" .nothing, .child 1, .declare 1 "x" (.bool false), .child 0,
        .declare 0 "x" (.bool true)] scopes store ∧ scopes.length = 3 :=
    ⟨_, _, .assign (.child (.declare (.child (.declare (.root .empty "main.kes" ⟨0⟩) rfl "x" _) rfl)
      rfl "x" _) rfl) rfl "x" _, rfl⟩
  have houtermost := List.getElem?_eq_getElem (l := scopes) (i := 0) (by omega)
  have hinnermost := List.getElem?_eq_getElem (l := scopes) (i := 2) (by omega)
  exact ⟨scopes, store, _, _, htree, houtermost, hinnermost,
    ((scopes_answer_as_changed htree hinnermost).lookup_ok "x" .nothing).mpr (by rfl),
    ((scopes_answer_as_changed htree houtermost).lookup_ok "x" (.bool true)).mpr (by rfl)⟩

end Answers

end Kestrel
