import Kestrel.Proofs.Dictionary.Answers
import Kestrel.Proofs.Eval.Growing
import Kestrel.Proofs.Number.Index
import Kestrel.Proofs.Object
import Kestrel.Proofs.Slot

/-!
# Compound assignments

A compound assignment reads its target and then writes to it, and the two go different ways: through
the lookup of a name and its assignment, through an index that is read and one that is written, or
through a property that can also be a method. This file says which slot a target denotes. Where
there is one, it is what is read and what is written; where there is none, nothing is written.
-/

namespace Kestrel

open Discipline Eval
open Mentioning (mentions)

/-- The target of an assignment after its object and its index were evaluated. -/
inductive Target where
  | name (name : String)
  | index (object index : Value)
  | member (object : Value) (property : String)

namespace Target

/-- What the values in front of an assignment mention. -/
def mentions : Target → List Mention
  | name _ => []
  | index object place => object.mentions ++ place.mentions
  | member object _ => object.mentions

instance : Mentioning Target := ⟨Target.mentions⟩

/-- The value that a compound assignment combines with the one on its right. -/
def read (scope : Scope) : Target → Eval Value
  | name text => viewOrFail fun store => scope.lookup store text
  | index object place => viewOrFail fun store => indexValue store object place
  | member object property => getProperty object property

/-- Writes a value to the target. -/
def write (scope : Scope) (value : Value) : Target → Eval Unit
  | name text => assignName scope text value
  | index object place => assignIndex object place value
  | member object property => assignMember object property value

/-- Reads the target, combines what it read with the value on the right, and writes the result. -/
def update (scope : Scope) (operator : BinaryOperator) (right : Value) (target : Target) :
    Eval Unit := do
  let old ← target.read scope
  let value ← applyBinary operator old right
  target.write scope value

/-- The slot that a target denotes, if it is there: of a name its nearest binding, of an index the
item at that place or the entry with that key, and of a property a declared field or the entry with
that key, unless it is the name of a method. -/
def slot? (scope : Scope) (store : Store) : Target → Option Slot
  | name text => (scope.binder? store text).map (.binding · text)
  | index (.array ref) (.number x) =>
    match resolveIndex x (Array.size (store.get ref)) with
    | .ok place => some (.item ref place)
    | .error _ => none
  | index (.dictionary ref) place =>
    if OrderedMap.contains (store.get ref) (place.display store) then
      some (.entry ref (place.display store))
    else none
  | member (.object ref) property =>
    if property ∈ (store.get (store.get ref).template).properties then some (.field ref property)
    else none
  | member (.dictionary ref) property =>
    if (DictionaryMethod.ofName? property).isNone ∧
        OrderedMap.contains (store.get ref) property then
      some (.entry ref property)
    else none
  | _ => none

end Target

/-- What the parts of an assignment are evaluated to, one after the other: those of its target, and
then the value on its right. -/
inductive Operands (evaluator : Evaluator) (scope : Scope) (value : Expression) :
    ExpressionForm → State → Target → Value → State → Prop
  | name {name : String} {before after : State} {right : Value}
      (hright : evaluator.expression scope value before = .value right after) :
      Operands evaluator scope value (.identifier name) before (.name name) right after
  | index {object index : Expression} {before first second after : State}
      {target place right : Value}
      (hobject : evaluator.expression scope object before = .value target first)
      (hindex : evaluator.expression scope index first = .value place second)
      (hright : evaluator.expression scope value second = .value right after) :
      Operands evaluator scope value (.index object index) before (.index target place) right after
  | member {object : Expression} {property : Identifier} {before first after : State}
      {target right : Value}
      (hobject : evaluator.expression scope object before = .value target first)
      (hright : evaluator.expression scope value first = .value right after) :
      Operands evaluator scope value (.member object property) before
        (.member target property.name) right after

/-- A method is no operand of an operator that can be part of an assignment. -/
theorem applyBinary_native_fails {operator : AssignOperator} {binary : BinaryOperator}
    (hbinary : operator.binary? = some binary) (method : Ref .native) (right : Value)
    (state : State) : (applyBinary binary (.native method) right state).Fails state := by
  have hmismatch : operate state.store binary (.native method) right =
      .error (operandMismatch binary (.native method) right) := by
    cases operator <;> cases hbinary <;> rfl
  have happly : applyBinary binary (.native method) right state =
      viewOrFail (fun store => operate store binary (.native method) right) state := by
    cases operator <;> cases hbinary <;> rfl
  rw [happly]
  exact viewOrFail_fails hmismatch

namespace Scope

variable {before after : Store}

/-- New cells make no difference to where names are bound. -/
theorem binderAmong_of_grows (hgrows : before.Grows after) (name : String)
    {refs : List (Ref .scope)} (hthere : ∀ ref ∈ refs, before.Has (.cell ref)) :
    binderAmong after name refs = binderAmong before name refs := by
  induction refs with
  | nil => rfl
  | cons ref others ih =>
    obtain ⟨hfirst, hothers⟩ := List.forall_mem_cons.mp hthere
    rw [binderAmong, binderAmong, hgrows.get_eq hfirst, ih hothers]

end Scope

namespace Target

variable {scope : Scope} {state : State} {target : Target} {slot : Slot} {before after : Store}

/-- Reading a target at most adds a cell. -/
theorem read_growsOnly (scope : Scope) (target : Target) (state : State) :
    (target.read scope state).GrowsOnly state := by
  cases target with
  | name text => exact viewOrFail_growsOnly (fun store => scope.lookup store text) state
  | index object place =>
    exact viewOrFail_growsOnly (fun store => indexValue store object place) state
  | member object property => exact getProperty_growsOnly object property state

/-- New cells make no difference to the slot that a target denotes. -/
theorem slot?_of_grows (hgrows : before.Grows after) (hsound : before.Sound)
    (hscope : before.HasScope scope) (hknown : shapes.Knows before target) :
    target.slot? scope after = target.slot? scope before := by
  cases target with
  | name name =>
    have hthere : ∀ ref ∈ scope.here :: scope.outer, before.Has (.cell ref) :=
      fun ref hmem => Knows.admits_of_mem (D := shapes) hscope hmem
    simp only [slot?, Scope.binder?, Scope.binderAmong_of_grows hgrows name hthere]
  | index object index =>
    have hobject : shapes.Knows before object := fun mention hmention =>
      hknown mention (List.mem_append_left _ hmention)
    have hindex : shapes.Knows before index := fun mention hmention =>
      hknown mention (List.mem_append_right _ hmention)
    cases object with
    | array ref =>
      have hsame := hgrows.get_eq (knows_value_array.mp hobject)
      cases index with
      | number x => simp only [slot?, hsame]
      | _ => rfl
    | dictionary ref =>
      have hsame := hgrows.get_eq (knows_value_dictionary.mp hobject)
      have hkey := Value.display_of_grows hgrows hsound hindex
      simp only [slot?, hsame, hkey]
    | _ => rfl
  | member object property =>
    have hobject : shapes.Knows before object := hknown
    cases object with
    | dictionary ref =>
      have hsame := hgrows.get_eq (knows_value_dictionary.mp hobject)
      simp only [slot?, hsame]
    | object ref =>
      have hthere := knows_value_object.mp hobject
      have htemplate := (@knows_object shapes before ref hsound hthere).1
      simp only [slot?, hgrows.get_eq hthere, hgrows.get_eq htemplate]
    | _ => rfl

/-- The slot that a target denotes is there, and its value is what is read. -/
theorem read_slot (hsound : state.store.Sound) (hscope : state.store.HasScope scope)
    (hknown : shapes.Knows state.store target)
    (hslot : target.slot? scope state.store = some slot) :
    state.store.Has slot.cell ∧ ∃ old, slot.value? state.store = some old ∧
      target.read scope state = .value old state := by
  cases target with
  | name text =>
    obtain ⟨ref, hbinder, rfl⟩ := Option.map_eq_some_iff.mp hslot
    obtain ⟨hmem, hcontains⟩ := Scope.binderAmong_eq_some hbinder
    have hthere : state.store.Has (.cell ref) := Knows.admits_of_mem (D := shapes) hscope hmem
    obtain ⟨old, hold⟩ := Option.isSome_iff_exists.mp hcontains
    have hlookup : scope.lookup state.store text = .ok old := by
      simp only [Scope.lookup, hbinder, Option.bind_some, hold]
    exact ⟨hthere, old, hold, viewOrFail_of_ok (f := fun store => scope.lookup store text) hlookup⟩
  | index object place =>
    have hobject : shapes.Knows state.store object := fun mention hmention =>
      hknown mention (List.mem_append_left _ hmention)
    have hread {old : Value} (hindex : indexValue state.store object place = .ok old) :
        (Target.index object place).read scope state = .value old state :=
      viewOrFail_of_ok (f := fun store => indexValue store object place) hindex
    cases object with
    | array ref =>
      cases place with
      | number x =>
        simp only [slot?] at hslot
        split at hslot
        · next position hresolve =>
          cases hslot
          have hlt : position < Array.size (state.store.get ref) := lt_of_resolveIndex hresolve
          have hold : (state.store.get ref : Array Value)[position]? =
              some (state.store.get ref : Array Value)[position] := Array.getElem?_eq_getElem hlt
          refine ⟨knows_value_array.mp hobject, _, hold, hread ?_⟩
          simp only [indexValue, numericIndex, bind, Except.bind, hresolve, hold]
          rfl
        · cases hslot
      | _ => cases hslot
    | dictionary ref =>
      simp only [slot?] at hslot
      split_ifs at hslot with hcontains
      cases hslot
      obtain ⟨old, hold⟩ := Option.isSome_iff_exists.mp hcontains
      refine ⟨knows_value_dictionary.mp hobject, old, hold, hread ?_⟩
      simp only [indexValue, hold]
    | _ => cases hslot
  | member object property =>
    have hobject : shapes.Knows state.store object := hknown
    cases object with
    | dictionary ref =>
      simp only [slot?] at hslot
      split_ifs at hslot with hentry
      cases hslot
      obtain ⟨old, hold⟩ := Option.isSome_iff_exists.mp hentry.2
      have hproperty : property? state.store (.dictionary ref) property = some (.value old) := by
        simp only [property?, Option.isNone_iff_eq_none.mp hentry.1, hold, Option.map_some]
      exact ⟨knows_value_dictionary.mp hobject, old, hold, getProperty_of_some hproperty⟩
    | object ref =>
      simp only [slot?] at hslot
      split_ifs at hslot with hdeclared
      cases hslot
      have hthere := knows_value_object.mp hobject
      obtain ⟨old, hold, hread⟩ := hsound.getProperty_declared hthere hdeclared
      exact ⟨hthere, old, hold, hread⟩
    | _ => cases hslot

/-- The slot that a target denotes is what is written. -/
theorem write_slot (hslot : target.slot? scope state.store = some slot) (value : Value) :
    target.write scope value state =
      .value () { state with store := slot.put value state.store } := by
  cases target with
  | name text =>
    obtain ⟨ref, hbinder, rfl⟩ := Option.map_eq_some_iff.mp hslot
    have hassignable : scope.assignable state.store text = .ok ref := by
      simp only [Scope.assignable, hbinder]
    exact bind_of_value (viewOrFail_of_ok hassignable) _
  | index object place =>
    cases object with
    | array ref =>
      cases place with
      | number x =>
        simp only [slot?] at hslot
        split at hslot
        · next position hresolve =>
          cases hslot
          exact bind_of_value (viewOrFail_of_ok hresolve) _
        · cases hslot
      | _ => cases hslot
    | dictionary ref =>
      simp only [slot?] at hslot
      split_ifs at hslot
      cases hslot
      rfl
    | _ => cases hslot
  | member object property =>
    cases object with
    | dictionary ref =>
      simp only [slot?] at hslot
      split_ifs at hslot
      cases hslot
      rfl
    | object ref =>
      simp only [slot?] at hslot
      split_ifs at hslot with hdeclared
      cases hslot
      simp only [write, assignMember, bind_apply, view, Result.andThen, if_pos hdeclared]
      rfl
    | _ => cases hslot

section NoSlot

variable {operator : AssignOperator} {binary : BinaryOperator} {right : Value}

/-- A target that cannot be read is not written to. -/
theorem update_fails_of_read (hread : (target.read scope state).Fails state) :
    (target.update scope binary right state).Fails state :=
  bind_fails hread _

/-- A target that cannot be written to can still be read, and combined with a value. -/
theorem update_fails_of_write
    (hwrite : ∀ value after, state.Grows after → (target.write scope value after).Fails after) :
    (target.update scope binary right state).Fails state := by
  apply (read_growsOnly scope target state).andThen_fails
  intro old read _ hread
  apply (applyBinary_growsOnly binary old right read).andThen_fails
  intro value after _ hafter
  exact hwrite value after (hread.trans hafter)

/-- A compound assignment to something that is no slot fails. -/
theorem update_fails (hsound : state.store.Sound) (hknown : shapes.Knows state.store target)
    (hbinary : operator.binary? = some binary)
    (hslot : target.slot? scope state.store = none) :
    (target.update scope binary right state).Fails state := by
  cases target with
  | name text =>
    have hbinder := Option.map_eq_none_iff.mp hslot
    have hlookup : scope.lookup state.store text = .error (.undefinedName text) := by
      simp only [Scope.lookup, hbinder, Option.bind_none]
    exact update_fails_of_read
      (viewOrFail_fails (f := fun store => scope.lookup store text) hlookup)
  | index object place =>
    have hread {cause : Cause} (hindex : indexValue state.store object place = .error cause) :
        ((Target.index object place).update scope binary right state).Fails state :=
      update_fails_of_read
        (viewOrFail_fails (f := fun store => indexValue store object place) hindex)
    cases object with
    | array ref =>
      cases place with
      | number x =>
        simp only [slot?] at hslot
        split at hslot
        · cases hslot
        · next cause hresolve =>
          have hindex : indexValue state.store (.array ref) (.number x) = .error cause := by
            simp only [indexValue, numericIndex, bind, Except.bind, hresolve]
          exact hread hindex
      | _ => exact hread rfl
    | dictionary ref =>
      have hmissing : OrderedMap.get? (state.store.get ref) (place.display state.store) = none := by
        simp only [slot?] at hslot
        split_ifs at hslot with hcontains
        exact Option.not_isSome_iff_eq_none.mp hcontains
      have hindex : indexValue state.store (.dictionary ref) place =
          .error (.missingKey (place.display state.store)) := by
        simp only [indexValue, hmissing]
      exact hread hindex
    | _ => exact update_fails_of_write fun _ after _ => fail_fails _ after
  | member object property =>
    have hobject : shapes.Knows state.store object := hknown
    cases object with
    | dictionary ref =>
      cases hmethod : DictionaryMethod.ofName? property with
      | some method =>
        -- the method is read, but it is no operand
        have hproperty : property? state.store (.dictionary ref) property =
            some (.native (.ofDictionary ref method)) := by
          simp only [property?, hmethod]
        have hread : (Target.member (.dictionary ref) property).read scope state =
            .value (.native (state.store.next .native)) { state with
              store := state.store.add .native (.ofDictionary ref method) } :=
          getProperty_of_some hproperty
        unfold update
        rw [bind_of_value hread]
        exact (bind_fails (applyBinary_native_fails hbinary _ right _) _).of_grows
          (.add state .native _)
      | none =>
        have hmissing : property? state.store (.dictionary ref) property = none := by
          simp only [slot?, hmethod, Option.isNone_none, true_and] at hslot
          split_ifs at hslot with hcontains
          have hnone := Option.not_isSome_iff_eq_none.mp hcontains
          simp only [property?, hmethod, hnone, Option.map_none]
        apply update_fails_of_read
        apply bind_fails
        refine @viewOrFail_fails _ _ _
          (.noProperty (propertyOwner state.store (.dictionary ref)) property) ?_
        rw [hmissing]
    | object ref =>
      have hthere := knows_value_object.mp hobject
      have htemplate := (@knows_object shapes state.store ref hsound hthere).1
      apply update_fails_of_write
      intro value after hgrows
      have hundeclared :
          property ∉ (after.store.get (after.store.get ref).template).properties := by
        simp only [slot?] at hslot
        split_ifs at hslot with hdeclared
        rwa [hgrows.store.get_eq hthere, hgrows.store.get_eq htemplate]
      exact ⟨_, after, assignMember_undeclared hundeclared value, .refl after⟩
    | _ => exact update_fails_of_write fun _ after _ => fail_fails _ after

end NoSlot

end Target

/-- The values in front of an assignment and on its right are there, in a store that is sound. -/
theorem Operands.known {host : Host} {steps : Nat} {scope : Scope} {value : Expression}
    {form : ExpressionForm} {before after : State} {target : Target} {right : Value}
    (hoperands : Operands (.ofSteps host steps) scope value form before target right after)
    (hsound : before.store.Sound) (hscope : before.store.HasScope scope) :
    after.store.Sound ∧ after.store.HasScope scope ∧ shapes.Knows after.store target := by
  have hstep : ∀ {part : Expression} {state next : State} {given : Value},
      (Evaluator.ofSteps host steps).expression scope part state = .value given next →
        state.store.Sound → state.store.HasScope scope →
          shapes.Passes state.store next.store ∧ shapes.Knows next.store given := by
    intro part state next given hvalue hsound' hscope
    have hobeys := shapes.trusts_ofSteps host steps (.expression scope part) state hscope hsound'
    simp only [Evaluator.perform, hvalue] at hobeys
    exact hobeys
  cases hoperands with
  | name hright =>
    obtain ⟨hpasses, _⟩ := hstep hright hsound hscope
    exact ⟨hpasses.1, hscope.later hpasses.2, Knows.of_nil rfl⟩
  | index hobject hindex hright =>
    obtain ⟨hfirst, hobject⟩ := hstep hobject hsound hscope
    have hscope := hscope.later hfirst.2
    obtain ⟨hsecond, hindex⟩ := hstep hindex hfirst.1 hscope
    have hscope := hscope.later hsecond.2
    obtain ⟨hthird, _⟩ := hstep hright hsecond.1 hscope
    refine ⟨hthird.1, hscope.later hthird.2, ?_⟩
    intro mention hmention
    rcases List.mem_append.mp hmention with hmention | hmention
    · exact hobject.later (hsecond.trans hthird) mention hmention
    · exact hindex.later hthird mention hmention
  | member hobject hright =>
    obtain ⟨hfirst, hobject⟩ := hstep hobject hsound hscope
    have hscope := hscope.later hfirst.2
    obtain ⟨hsecond, _⟩ := hstep hright hfirst.1 hscope
    exact ⟨hsecond.1, hscope.later hsecond.2, hobject.later hsecond⟩

/-- After its operands were evaluated, a compound assignment updates its target. -/
theorem Operands.executeAssignment {evaluator : Evaluator} {scope : Scope} {value part : Expression}
    {before after : State} {target : Target} {right : Value} {operator : AssignOperator}
    {binary : BinaryOperator}
    (hoperands : Operands evaluator scope value part.form before target right after)
    (hbinary : operator.binary? = some binary) :
    Kestrel.executeAssignment evaluator scope part operator value before =
      target.update scope binary right after := by
  unfold Kestrel.executeAssignment assignedValue Target.update
  simp only [hbinary]
  generalize part.form = form at hoperands
  cases hoperands with
  | name hright =>
    simp only [bind_of_value hright, bind_assoc]
    rfl
  | index hobject hindex hright =>
    simp only [bind_of_value hobject, bind_of_value hindex, bind_of_value hright, bind_assoc]
    rfl
  | member hobject hright =>
    simp only [bind_of_value hobject, bind_of_value hright, bind_assoc]
    rfl

/-- Once its operands were evaluated, a compound assignment ends in one of two ways. If its target
denotes a slot and the operator can be applied to what is in this slot and the value on the right,
this slot gets the result and nothing else changes. If there is no such slot or the operator fails,
the assignment fails and changes nothing. In both cases there can be a new cell that nothing held
before: a sum of two arrays, or a method that was read. -/
theorem compound_assignment_updates_slot {host : Host} {steps : Nat} {scope : Scope}
    {statement : Statement} {target value : Expression} {operator : AssignOperator} {span : Span}
    {binary : BinaryOperator} {before middle : State} {denoted : Target} {right : Value}
    (hform : statement.form = .assignment target operator value span)
    (hbinary : operator.binary? = some binary) (hstate : before.Reachable)
    (hscope : before.store.HasScope scope)
    (hoperands : Operands (.ofSteps host steps) scope value target.form before denoted right
      middle) :
    (∃ slot old new grown after,
      denoted.slot? scope middle.store = some slot ∧ slot.value? middle.store = some old ∧
        applyBinary binary old right middle = .value new grown ∧
        executeStatement host (.ofSteps host steps) scope statement before =
          .value (.value .nothing) after ∧
        slot.Written new middle.store after.store ∧
        after.calls = middle.calls ∧ after.output = middle.output) ∨
      ((denoted.slot? scope middle.store = none ∨
          ∃ slot old error failed,
            denoted.slot? scope middle.store = some slot ∧ slot.value? middle.store = some old ∧
              applyBinary binary old right middle = .interrupted (.error error) failed) ∧
        ∃ error after,
          executeStatement host (.ofSteps host steps) scope statement before =
            .interrupted (.error error) after ∧ middle.Grows after) := by
  obtain ⟨hsound, hthere, hknown⟩ := hoperands.known hstate.sound hscope
  have hexecute : executeStatement host (.ofSteps host steps) scope statement before =
      ((denoted.update scope binary right middle).andThen fun _ => pure (.value .nothing)).settled
        scope statement.line := by
    rw [executeStatement_apply, hform, ← hoperands.executeAssignment hbinary]
    rfl
  have hfails (hupdate : (denoted.update scope binary right middle).Fails middle) :
      ∃ error after, executeStatement host (.ofSteps host steps) scope statement before =
        .interrupted (.error error) after ∧ middle.Grows after := by
    obtain ⟨error, after, hend, hgrows⟩ := hupdate
    rw [hend] at hexecute
    exact ⟨_, after, hexecute, hgrows⟩
  cases hslot : denoted.slot? scope middle.store with
  | none => exact .inr ⟨.inl rfl, hfails (Target.update_fails hsound hknown hbinary hslot)⟩
  | some slot =>
    obtain ⟨hcell, old, hold, hread⟩ := Target.read_slot hsound hthere hknown hslot
    have hgrows := applyBinary_growsOnly binary old right middle
    have hupdate : denoted.update scope binary right middle =
        (applyBinary binary old right middle).andThen fun value => denoted.write scope value := by
      unfold Target.update
      rw [bind_of_value hread, bind_apply]
    cases hend : applyBinary binary old right middle with
    | value new grown =>
      rw [hend] at hgrows hupdate
      have hlater : denoted.slot? scope grown.store = some slot :=
        (Target.slot?_of_grows hgrows.store hsound hthere hknown).trans hslot
      have hwrite := Target.write_slot hlater new
      have hgrown : grown.store.Has slot.cell := by
        cases slot <;> exact Nat.lt_of_lt_of_le hcell (hgrows.store.size_le _)
      have hsome : (slot.value? grown.store).isSome := by
        rw [Slot.value?_of_grows hgrows.store hcell, hold]
        rfl
      refine .inl ⟨slot, old, new, grown, { grown with store := slot.put new grown.store }, rfl,
        hold, hend, ?_, (Slot.written_put hgrown hsome).of_grows hgrows.store, hgrows.calls,
        hgrows.output⟩
      rw [hexecute, hupdate, Result.andThen, hwrite]
      rfl
    | interrupted interrupt failed =>
      rw [hend] at hgrows hupdate
      cases interrupt with
      | error error =>
        exact .inr ⟨.inr ⟨slot, old, error, failed, rfl, hold, hend⟩,
          hfails ⟨error, failed, hupdate, hgrows⟩⟩
      | loopExit exit => cases hgrows
    | halted reason =>
      rw [hend] at hgrows
      cases hgrows

/-- An entry of a dictionary gets a longer text. -/
theorem entry_updated_with_longer_text :
    let host := Settings.default.host (.fromMemory [])
    let start := Settings.default.initialState .empty
    let scope := (Scope.ofMain start.store "main").1
    let opened : State := { start with store := (Scope.ofMain start.store "main").2 }
    let here : Span := default
    let string (text : String) : Expression := ⟨.string text, here⟩
    let entries : Expression := ⟨.dictionary [⟨"k", string "x", here⟩], here⟩
    let first : Statement := ⟨.var ⟨"d", here⟩ entries here, here⟩
    let target : Expression := ⟨.index ⟨.identifier "d", here⟩ (string "k"), here⟩
    let second : Statement := ⟨.assignment target .addAssign (string "y") here, here⟩
    ∃ before after, before.Reachable ∧
      (executeStatement host (.ofSteps host 3) scope first opened).after? = some before ∧
      executeStatement host (.ofSteps host 3) scope second before = .value (.value .nothing) after ∧
      (Slot.entry ⟨0⟩ "k").Written (.string "xy") before.store after.store := by
  intro host start scope opened here string entries first target second
  have hopened : opened.Reachable := .opened (.initial .default .empty) "main"
  have hscope : opened.store.HasScope (Task.statement scope first).scope :=
    (Store.sound_empty.ofMain "main").2
  have hreaches : Reaches host 4 ⟨.statement scope first, opened⟩ 4
      ⟨.statement scope first, opened⟩ := .refl _ _
  obtain ⟨before, hafter, hlookup, hslot, hold⟩ : ∃ before,
      (executeStatement host (.ofSteps host 3) scope first opened).after? = some before ∧
        (scope.lookup before.store "d").toOption = some (.dictionary ⟨0⟩) ∧
        (Target.index (.dictionary ⟨0⟩) (.string "k")).slot? scope before.store =
          some (.entry ⟨0⟩ "k") ∧
        (Slot.entry ⟨0⟩ "k").value? before.store = some (.string "x") := by
    have hcheck : (match (executeStatement host (.ofSteps host 3) scope first opened).after? with
        | some before => decide ((scope.lookup before.store "d").toOption =
            some (.dictionary ⟨0⟩) ∧
          (Target.index (.dictionary ⟨0⟩) (.string "k")).slot? scope before.store =
            some (.entry ⟨0⟩ "k") ∧
          (Slot.entry ⟨0⟩ "k").value? before.store = some (.string "x"))
        | none => false) = true := by
      decide +kernel
    split at hcheck
    · next before hafter => exact ⟨before, hafter, of_decide_eq_true hcheck⟩
    · cases hcheck
  have hended : ((Evaluator.ofSteps host 4).outcome ⟨.statement scope first, opened⟩).after? =
      some before := by
    rw [Evaluator.outcome_ofSteps_succ]
    exact hafter
  have hbefore : before.Reachable := .ended hopened hscope hreaches hended
  have hlater : before.store.HasScope scope :=
    hscope.later (hreaches.passes hopened.sound hscope hended).2
  have hobject : scope.lookup before.store "d" = .ok (.dictionary ⟨0⟩) := by
    cases hend : scope.lookup before.store "d" with
    | ok value =>
      rw [hend] at hlookup
      cases hlookup
      rfl
    | error cause =>
      rw [hend] at hlookup
      cases hlookup
  have hoperands : Operands (.ofSteps host 3) scope (string "y") target.form before
      (.index (.dictionary ⟨0⟩) (.string "k")) (.string "y") before :=
    .index (viewOrFail_of_ok (f := fun store => scope.lookup store "d") hobject) rfl rfl
  have happly : applyBinary .add (.string "x") (.string "y") before =
      .value (.string "xy") before := rfl
  have hform : second.form = .assignment _ .addAssign _ _ := rfl
  rcases compound_assignment_updates_slot hform rfl hbefore hlater hoperands with
    hsuccess | ⟨hnone | ⟨slot, old, error, failed, hslot', hold', hfailed⟩, -⟩
  · obtain ⟨slot, old, new, grown, after, hslot', hold', hnew, hend, hwritten, -⟩ := hsuccess
    cases hslot.symm.trans hslot'
    cases hold.symm.trans hold'
    cases happly.symm.trans hnew
    exact ⟨before, after, hbefore, hafter, hend, hwritten⟩
  · cases hslot.symm.trans hnone
  · cases hslot.symm.trans hslot'
    cases hold.symm.trans hold'
    cases happly.symm.trans hfailed

end Kestrel
