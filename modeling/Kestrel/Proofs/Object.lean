import Kestrel.Proofs.Discipline.Shape
import Kestrel.Proofs.Module.Nesting

/-!
# Objects and their structs

In every state that a run can come to, an object has exactly the fields that its struct declares, in
the order of the declaration. So a declared property can always be read, and no other name ever
becomes a field. The states are described first: all that can be done in a state leads to another
one, whether it ends or is interrupted, and however far it has come.
-/

namespace Kestrel

open Mentioning (mentions)
open Relation (ReflTransGen)

/-- The scope in which a task is carried out. -/
def Task.scope : Task → Scope
  | .expression scope _ => scope
  | .statement scope _ => scope
  | .block scope _ => scope

/-- The store has the cells of a scope. -/
def Store.HasScope (store : Store) (scope : Scope) : Prop :=
  ∀ mention ∈ mentions scope, store.Has mention

/-- The states that runs come to: from a state without cells on, modules get scopes, tasks are
carried out in scopes that are there, scopes are cleared, and printed text and active calls are
taken away. A task comes to all states in which a visit begins or ends. -/
inductive State.Reachable : State → Prop
  | initial (settings : Settings) (output : Output) : Reachable (settings.initialState output)
  | opened {state : State} (hstate : Reachable state) (module : String) :
    Reachable { state with store := (Scope.ofMain state.store module).2 }
  | begun {state : State} (hstate : Reachable state) {host : Host} {steps left : Nat} {task : Task}
    {inner : Visit} (hscope : state.store.HasScope task.scope)
    (hreaches : Reaches host steps ⟨task, state⟩ left inner) : Reachable inner.state
  | ended {state after : State} (hstate : Reachable state) {host : Host} {steps left : Nat}
    {task : Task} {inner : Visit} (hscope : state.store.HasScope task.scope)
    (hreaches : Reaches host steps ⟨task, state⟩ left inner)
    (hafter : ((Evaluator.ofSteps host left).outcome inner).after? = some after) : Reachable after
  | cleared {state : State} (hstate : Reachable state) {scope : Scope}
    (hscope : state.store.HasScope scope) :
    Reachable { state with store := scope.clear state.store }
  | replaced {state after : State} (hstate : Reachable state) (hstore : after.store = state.store) :
    Reachable after

namespace Store

variable {store : Store}

/-- A task is ready in a scope that is there. -/
theorem HasScope.ready {task : Task} (hscope : store.HasScope task.scope) :
    Discipline.shapes.Ready store task := by
  cases task with
  | expression scope part => exact hscope
  | statement scope part => exact ⟨hscope, fun _ _ => trivial⟩
  | block scope parts => exact ⟨hscope, fun _ => trivial⟩

/-- The cells of a scope that are there stay there. -/
theorem HasScope.later {scope : Scope} {after : Store} (hscope : store.HasScope scope)
    (hkeeps : KeepsProperties store after) : after.HasScope scope :=
  fun mention hmention => hkeeps.has (hscope mention hmention)

/-- The scope of a new module is there, in a store that is still sound. -/
theorem Sound.ofMain (hsound : store.Sound) (module : String) :
    (Scope.ofMain store module).2.Sound ∧
      (Scope.ofMain store module).2.HasScope (Scope.ofMain store module).1 := by
  have hmentions : ∀ mention ∈ CellKind.mentions .imports .empty, store.Has mention := by
    rintro mention ⟨⟩
  have hadded : (store.add .imports .empty).Sound := hsound.add hmentions trivial
  have htracker := store.next_lt_size_add .imports .empty
  have hmodule : (store.add .imports .empty).Has (.module module) := trivial
  obtain ⟨hpasses, hopens⟩ :=
    @Discipline.passes_ofModule Discipline.shapes _ module _ hadded hmodule htracker
  exact ⟨hpasses.1, hopens.1⟩

/-- A cleared scope leaves a sound store sound, and no cell is lost. -/
theorem Sound.clear (hsound : store.Sound) (scope : Scope) :
    (scope.clear store).Sound ∧ KeepsProperties store (scope.clear store) := by
  have hstays : CellKind.Stays store .scope (store.get scope.here) .empty := trivial
  exact ⟨hsound.modify (by rintro mention ⟨⟩) hstays, .modify hstays⟩

end Store

/-- How a visit ends that a sound store was ready for. -/
theorem Reaches.passes {host : Host} {steps left : Nat} {outer inner : Visit} {after : State}
    (hreaches : Reaches host steps outer left inner) (hsound : outer.state.store.Sound)
    (hscope : outer.state.store.HasScope outer.task.scope)
    (hafter : ((Evaluator.ofSteps host left).outcome inner).after? = some after) :
    Discipline.shapes.Passes outer.state.store after.store := by
  have hbegins := hreaches.begins (D := .shapes) hsound hscope.ready
  exact ((Discipline.shapes.trusts_ofSteps host left).outcome hbegins).passes hafter

/-- The store of every state that a run comes to is sound. -/
theorem State.Reachable.sound {state : State} (hstate : state.Reachable) : state.store.Sound := by
  induction hstate with
  | initial settings output => exact Store.sound_empty
  | opened _ module ih => exact (ih.ofMain module).1
  | begun _ hscope hreaches ih => exact (hreaches.begins (D := .shapes) ih hscope.ready).1.1
  | ended _ hscope hreaches hafter ih => exact (hreaches.passes ih hscope hafter).1
  | @cleared _ _ scope _ ih => exact (ih.clear scope).1
  | replaced _ hstore ih => rwa [hstore]

section Fields

variable {state : State} {ref : Ref .object} {name : String}

/-- A declared property of an object is one of its fields, and is read as it is. -/
theorem Store.Sound.getProperty_declared (hsound : state.store.Sound)
    (hlt : ref.index < state.store.size .object)
    (hdeclared : name ∈ (state.store.get (state.store.get ref).template).properties) :
    ∃ field, (state.store.get ref).fields.get? name = some field ∧
      getProperty (.object ref) name state = .value field state := by
  have hkeys : (state.store.get ref).fields.keys =
      (state.store.get (state.store.get ref).template).properties :=
    hsound.shaped hlt
  have hcontains : (state.store.get ref).fields.contains name :=
    OrderedMap.contains_iff.mpr (hkeys ▸ hdeclared)
  obtain ⟨field, hfield⟩ := Option.isSome_iff_exists.mp hcontains
  refine ⟨field, hfield, ?_⟩
  unfold getProperty
  rw [Eval.bind_apply]
  simp only [Eval.viewOrFail, property?, hfield]
  rfl

/-- Reading a property leaves all objects as they are: at most a method is bound. -/
theorem getProperty_keeps_objects {value : Value} {after : State}
    (hafter : (getProperty value name state).after? = some after) (ref : Ref .object) :
    after.store.get ref = state.store.get ref := by
  unfold getProperty at hafter
  rw [Eval.bind_apply] at hafter
  cases hproperty : property? state.store value name with
  | none =>
    simp only [Eval.viewOrFail, hproperty] at hafter
    cases hafter
    rfl
  | some property =>
    simp only [Eval.viewOrFail, hproperty] at hafter
    cases property with
    | value given =>
      cases hafter
      rfl
    | native method =>
      cases hafter
      exact Store.get_add_of_ne (by simp) _
    | method function object =>
      cases hafter
      exact Store.get_add_of_ne (by simp) _

/-- Assigning to a name that the struct does not declare fails, and changes nothing. -/
theorem assignMember_undeclared
    (hundeclared : name ∉ (state.store.get (state.store.get ref).template).properties)
    (value : Value) : assignMember (.object ref) name value state =
      .interrupted (.error (.ofCause (.noProperty
        (state.store.get (state.store.get ref).template).name name))) state := by
  simp only [assignMember, Eval.bind_apply, Eval.view, Result.andThen, if_neg hundeclared]
  rfl

end Fields

section Runs

variable {host : Host} {state after : State}

/-- A program ends in the state in which its block ends. -/
theorem after?_executeProgram (evaluator : Evaluator) (scope : Scope)
    (statements : List Statement) (state : State) :
    (executeProgram evaluator scope statements state).after? =
      (evaluator.outcome ⟨.block scope statements, state⟩).after? := by
  have hprogram : executeProgram evaluator scope statements state =
      (evaluator.outcome ⟨.block scope statements, state⟩).andThen programValue := rfl
  rw [hprogram]
  cases evaluator.outcome ⟨.block scope statements, state⟩ with
  | value signal final => cases signal <;> rfl
  | interrupted interrupt final => rfl
  | halted reason => rfl

/-- A program that is carried out in a scope that is there leads from one state that a run comes to
to another one, and the scope is still there. -/
theorem State.Reachable.executeProgram {scope : Scope} {statements : List Statement}
    (hstate : state.Reachable) (hscope : state.store.HasScope scope)
    {outcome : Except RunError Value}
    (hrun : (Kestrel.executeProgram host.evaluator scope statements state).toRun =
      .ok (outcome, after)) : after.Reachable ∧ after.store.HasScope scope := by
  have hafter := Result.after?_of_toRun hrun
  rw [after?_executeProgram] at hafter
  have htask : state.store.HasScope (Task.block scope statements).scope := hscope
  have hreaches : Reaches host stepLimit ⟨.block scope statements, state⟩ stepLimit
    ⟨.block scope statements, state⟩ := .refl _ _
  have hpasses := hreaches.passes hstate.sound htask hafter
  exact ⟨.ended hstate htask hreaches hafter, hscope.later hpasses.2⟩

/-- A source text that is run in a scope that is there leads from one state that a run comes to to
another one, and the scope is still there. -/
theorem State.Reachable.evaluateIn {source : String} {scope : Scope}
    {outcome : Except RunError Value} (hstate : state.Reachable)
    (hscope : state.store.HasScope scope)
    (hrun : Kestrel.evaluateIn host source scope state = .ok (outcome, after)) :
    after.Reachable ∧ after.store.HasScope scope := by
  unfold Kestrel.evaluateIn at hrun
  cases hparse : parseProgram source (some scope.module) with
  | error error =>
    rw [hparse] at hrun
    cases hrun
    exact ⟨hstate, hscope⟩
  | ok program =>
    rw [hparse] at hrun
    exact hstate.executeProgram hscope hrun

/-- A source text that is run as a module leads from a state that a run comes to to another one. -/
theorem State.Reachable.runSource {source name : String} {outcome : Except RunError Value}
    (hstate : state.Reachable)
    (hrun : Kestrel.runSource host source name state = .ok (outcome, after)) : after.Reachable := by
  cases hparse : parseProgram source (some (host.loader.entryKey name)) with
  | error error =>
    unfold Kestrel.runSource at hrun
    simp only [hparse] at hrun
    cases hrun
    exact hstate
  | ok program =>
    rw [runSource_eq_result hparse] at hrun
    have hopened := State.Reachable.opened hstate (host.loader.entryKey name)
    exact (hopened.executeProgram (hstate.sound.ofMain _).2 hrun).1

/-- A file that is run leads from one state that a run comes to to another one. -/
theorem State.Reachable.runFile {settings : Settings} {files : Files} {path : String}
    {outcome : Except RunError Value} (hstate : state.Reachable)
    (hrun : Kestrel.runFile settings files path state = .ok (outcome, after)) :
    after.Reachable := by
  unfold Kestrel.runFile at hrun
  split at hrun
  · cases hrun
  · cases hrun
    exact hstate
  · exact hstate.runSource hrun

/-- A session goes from one state that a run comes to to another one. -/
theorem Session.reachable_of_continues {module : String} {session : Session}
    (hstate : state.Reachable)
    (hcontinues : ReflTransGen Session.Continues (.inNewScope host module state) session) :
    session.state.Reachable ∧ session.state.store.HasScope session.scope := by
  induction hcontinues with
  | refl => exact ⟨.opened hstate module, (hstate.sound.ofMain module).2⟩
  | @tail session next _ hnext ih =>
    obtain ⟨hreachable, hscope⟩ := ih
    cases hnext with
    | @run _ source outcome hrun =>
      unfold Session.run Run.mapEnd at hrun
      split at hrun
      · next outcome final hend =>
        cases hrun
        exact hreachable.evaluateIn hscope hend
      · cases hrun
    | clear =>
      have hkeeps := (hreachable.sound.clear session.scope).2
      exact ⟨.cleared hreachable hscope, hscope.later hkeeps⟩
    | replace hsame hstore =>
      refine ⟨.replaced hreachable hstore, ?_⟩
      rwa [hsame, hstore]

end Runs

/-- In every state that a run comes to, the properties of each struct are different ones, and each
object has exactly the properties of its struct as fields, in the order of the declaration. So a
declared property is read without failing and without any change, reading any other name leaves all
objects as they are, and assigning to it fails and changes nothing. The states that runs come to
include all those in which source texts, files and sessions are left, whatever was run before. -/
theorem objects_have_declared_fields :
    (∀ state : State, state.Reachable →
      (∀ ref : Ref .struct, ref.index < state.store.size .struct →
        (state.store.get ref).properties.Nodup) ∧
      ∀ ref : Ref .object, ref.index < state.store.size .object →
        let template := state.store.get (state.store.get ref).template
        (state.store.get ref).template.index < state.store.size .struct ∧
        (state.store.get ref).fields.keys = template.properties ∧
        (∀ name ∈ template.properties, ∃ field,
          (state.store.get ref).fields.get? name = some field ∧
            getProperty (.object ref) name state = .value field state) ∧
        (∀ name after, (getProperty (.object ref) name state).after? = some after →
          ∀ other : Ref .object, after.store.get other = state.store.get other) ∧
        ∀ name, name ∉ template.properties → ∀ value,
          assignMember (.object ref) name value state =
            .interrupted (.error (.ofCause (.noProperty template.name name))) state) ∧
    (∀ (host : Host) (source name : String) (state after : State)
        (outcome : Except RunError Value), state.Reachable →
      runSource host source name state = .ok (outcome, after) → after.Reachable) ∧
    (∀ (settings : Settings) (files : Files) (path : String) (state after : State)
        (outcome : Except RunError Value), state.Reachable →
      runFile settings files path state = .ok (outcome, after) → after.Reachable) ∧
    ∀ (host : Host) (module : String) (state : State) (session : Session), state.Reachable →
      ReflTransGen Session.Continues (.inNewScope host module state) session →
        session.state.Reachable := by
  refine ⟨fun state hstate => ⟨fun ref hlt => hstate.sound.shaped hlt, fun ref hlt => ?_⟩,
    ?_, ?_, ?_⟩
  · have hsound := hstate.sound
    have htemplate : state.store.Has (.cell (state.store.get ref).template) :=
      hsound.has hlt _ (List.mem_append_left _ (List.mem_singleton_self _))
    refine ⟨htemplate, hsound.shaped hlt, ?_, ?_, ?_⟩
    · exact fun name hdeclared => hsound.getProperty_declared hlt hdeclared
    · exact fun name after hafter => getProperty_keeps_objects hafter
    · exact fun name hundeclared => assignMember_undeclared hundeclared
  · exact fun host source name state after outcome hstate hrun => hstate.runSource hrun
  · exact fun settings files path state after outcome hstate hrun => hstate.runFile hrun
  · exact fun host module state session hstate hcontinues =>
      (Session.reachable_of_continues hstate hcontinues).1

/-- An object is made with one field given twice and another one not at all, an assignment to an
undeclared name fails and is caught, and then the other field is assigned to. In the end the object
has its two fields, and both can be read. -/
theorem object_has_declared_fields_after_failure :
    let source :=
      "struct P { x, y } var p = P{y: true, y: nothing} try { p.z = 1 } catch { p.x = p }"
    let host := Settings.default.host (.fromMemory [])
    let state := Settings.default.initialState .empty
    let ref : Ref .object := ⟨0⟩
    ∃ outcome after, runSource host source "main" state = .ok (outcome, after) ∧
      state.Reachable ∧ after.Reachable ∧ ref.index < after.store.size .object ∧
      (after.store.get ref).fields.keys = ["x", "y"] ∧
      ∃ field, getProperty (.object ref) "x" after = .value field after := by
  intro source host state ref
  obtain ⟨outcome, after, hrun, hlt, hdeclared⟩ : ∃ outcome after,
      runSource host source "main" state = .ok (outcome, after) ∧
        ref.index < after.store.size .object ∧
        (after.store.get (after.store.get ref).template).properties = ["x", "y"] := by
    have hcheck : (match runSource host source "main" state with
        | .ok (_, after) => decide (ref.index < after.store.size .object ∧
          (after.store.get (after.store.get ref).template).properties = ["x", "y"])
        | .error _ => false) = true := by
      decide +kernel
    split at hcheck
    · next outcome after hrun =>
      obtain ⟨hlt, hdeclared⟩ := of_decide_eq_true hcheck
      exact ⟨outcome, after, hrun, hlt, hdeclared⟩
    · cases hcheck
  have hstate : state.Reachable := .initial .default .empty
  have hafter := objects_have_declared_fields.2.1 host source "main" state after outcome hstate hrun
  obtain ⟨_, hkeys, hread, _⟩ := (objects_have_declared_fields.1 after hafter).2 ref hlt
  rw [hdeclared] at hkeys hread
  obtain ⟨field, _, hfield⟩ := hread "x" (by simp)
  exact ⟨outcome, after, hrun, hstate, hafter, hlt, hkeys, field, hfield⟩

end Kestrel
