import Kestrel.Proofs.Eval.Plain
import Kestrel.Proofs.Gives
import Kestrel.Proofs.Mention
import Kestrel.Proofs.Scope
import Kestrel.Proofs.Store

/-!
# Disciplines

A discipline says which stores may follow a store while a program runs, and what the program may
know for this to be so. It says so for the steps that change the store: a new cell, a change of a
cell, a binding of a name and a noted import. Of structs and objects it can count on what all
programs keep to: properties are declared once and for all. A computation obeys the discipline if it
takes only such steps and ends with data that the program may know. This file gives the rules for
the computations that all others are made of.
-/

namespace Kestrel

open Mentioning (mentions)

/-- What a program makes new cells of: a struct has no property twice, and an object has the fields
that its struct was known to declare. -/
def CellKind.Fits (known : Ref .struct → StructTemplate → Prop) :
    (kind : CellKind) → kind.Content → Prop
  | .struct, template => template.properties.Nodup
  | .object, made =>
    ∃ template, known made.template template ∧ made.fields.keys = template.blankFields.keys
  | _, _ => True

/-- What a cell of a store has to be like: a struct has no property twice, and an object has the
fields that its struct declares, in the order of the declaration. -/
def CellKind.Shaped (store : Store) : (kind : CellKind) → kind.Content → Prop
  | .struct, template => template.properties.Nodup
  | .object, made => made.fields.keys = (store.get made.template).properties
  | _, _ => True

/-- What a program leaves of a cell that it changes: the properties of a struct, and the fields of
an object that has those that its struct declares. -/
def CellKind.Stays (store : Store) : (kind : CellKind) → (before after : kind.Content) → Prop
  | .struct, before, after => after.properties = before.properties
  | .object, before, after =>
    CellKind.Shaped store .object before → CellKind.Shaped store .object after
  | _, _, _ => True

/-- What a program may come to know and do, in terms of the store. -/
structure Discipline where
  /-- The stores that the program may meet. -/
  holds : Store → Prop
  /-- What the data of the program may mention. -/
  admits : Store → Mention → Prop
  /-- The names that a scope may get. -/
  binds : Ref .scope → String → Prop
  /-- The stores that may follow a store. -/
  allows : Store → Store → Prop
  allows_refl (store : Store) : allows store store
  allows_trans {first second third : Store} :
    allows first second → allows second third → allows first third
  admits_later {before after : Store} {mention : Mention} :
    allows before after → admits before mention → admits after mention
  admits_held {store : Store} {kind : CellKind} {ref : Ref kind} {mention : Mention} :
    holds store → admits store (.cell ref) → mention ∈ kind.mentions (store.get ref) →
      admits store mention
  add {store : Store} {kind : CellKind} {content : kind.Content} :
    holds store → kind ≠ .imports → (∀ mention ∈ kind.mentions content, admits store mention) →
      kind.Fits (fun ref template => ∃ earlier, (holds earlier ∧ allows earlier store) ∧
        admits earlier (.cell ref) ∧ earlier.get ref = template) content →
      (holds (store.add kind content) ∧ allows store (store.add kind content)) ∧
        admits (store.add kind content) (.cell (store.next kind))
  binds_next {store : Store} (name : String) : holds store → binds (store.next .scope) name
  modify {store : Store} {kind : CellKind} {ref : Ref kind} {f : kind.Content → kind.Content} :
    holds store → kind ≠ .scope → kind ≠ .imports → admits store (.cell ref) →
      (∀ mention ∈ kind.mentions (f (store.get ref)), admits store mention) →
      kind.Stays store (store.get ref) (f (store.get ref)) →
        holds (store.modify ref f) ∧ allows store (store.modify ref f)
  rebind {store : Store} {ref : Ref .scope} {name : String} {value : Value} :
    holds store → admits store (.cell ref) → binds ref name ∨ (store.get ref).contains name →
      (∀ mention ∈ value.mentions, admits store mention) →
        holds (Scope.rebind store ref name value) ∧ allows store (Scope.rebind store ref name value)
  record {store : Store} {imports : Ref .imports} {target importer : String}
      {graph : ImportGraph} :
    holds store → admits store (.cell imports) → admits store (.module importer) →
      (store.get imports).record target importer = .ok graph →
        (holds (store.modify imports fun _ => graph) ∧
            allows store (store.modify imports fun _ => graph)) ∧
          admits (store.modify imports fun _ => graph) (.module target)

namespace Discipline

variable (D : Discipline) {α β : Type}

/-- A store that the program may meet after another one. -/
def Passes (before after : Store) : Prop := D.holds after ∧ D.allows before after

/-- The program may have some data. -/
def Knows [Mentioning α] (store : Store) (data : α) : Prop :=
  ∀ mention ∈ mentions data, D.admits store mention

/-- A struct had this template when the program came to know it. -/
def Known (store : Store) (ref : Ref .struct) (template : StructTemplate) : Prop :=
  ∃ earlier, (D.holds earlier ∧ D.allows earlier store) ∧ D.admits earlier (.cell ref) ∧
    earlier.get ref = template

/-- The program may declare any name in a scope. -/
def Opens (store : Store) (scope : Scope) : Prop :=
  D.Knows store scope ∧ ∀ name, D.binds scope.here name

variable {D} {store before after : Store}

/-- No step is needed. -/
theorem Passes.refl (hholds : D.holds store) : D.Passes store store := ⟨hholds, D.allows_refl store⟩

/-- Steps can follow steps. -/
theorem Passes.trans {middle : Store} (hfirst : D.Passes before middle)
    (hsecond : D.Passes middle after) : D.Passes before after :=
  ⟨hsecond.1, D.allows_trans hfirst.2 hsecond.2⟩

namespace Knows

variable [Mentioning α] [Mentioning β]

/-- What the program may know it may know from then on. -/
theorem later {data : α} (hknows : D.Knows before data) (hpasses : D.Passes before after) :
    D.Knows after data :=
  fun mention hmention => D.admits_later hpasses.2 (hknows mention hmention)

/-- Data without mentions. -/
theorem of_nil {data : α} (hnil : mentions data = []) : D.Knows store data := by
  intro mention hmention
  rw [hnil] at hmention
  cases hmention

end Knows

/-- What holds of a scope in which names can be declared holds from then on. -/
theorem Opens.later {scope : Scope} (hopens : D.Opens before scope)
    (hpasses : D.Passes before after) : D.Opens after scope :=
  ⟨hopens.1.later hpasses, hopens.2⟩

section Data

variable [Mentioning α] [Mentioning β]

@[simp] theorem knows_unit (data : Unit) : D.Knows store data := Knows.of_nil rfl

@[simp] theorem knows_bool (data : Bool) : D.Knows store data := Knows.of_nil rfl

@[simp] theorem knows_nat (data : Nat) : D.Knows store data := Knows.of_nil rfl

@[simp] theorem knows_string (data : String) : D.Knows store data := Knows.of_nil rfl

@[simp] theorem knows_ref {kind : CellKind} {ref : Ref kind} :
    D.Knows store ref ↔ D.admits store (.cell ref) := by
  simp [Knows, mentions]

@[simp] theorem knows_pair {first : α} {second : β} :
    D.Knows store (first, second) ↔ D.Knows store first ∧ D.Knows store second := by
  simp [Knows, mentions, or_imp, forall_and]

/-- The program may know a list if it may know its members. -/
theorem knows_list {parts : List α} : D.Knows store parts ↔ ∀ part ∈ parts, D.Knows store part := by
  simp only [Knows, mentions, List.mem_flatMap]
  exact ⟨fun h part hpart mention hmention => h mention ⟨part, hpart, hmention⟩,
    fun h mention ⟨part, hpart, hmention⟩ => h part hpart mention hmention⟩

@[simp] theorem knows_nil : D.Knows store ([] : List α) := Knows.of_nil rfl

@[simp] theorem knows_cons {first : α} {others : List α} :
    D.Knows store (first :: others) ↔ D.Knows store first ∧ D.Knows store others := by
  simp [knows_list]

@[simp] theorem knows_none : D.Knows store (none : Option α) := Knows.of_nil rfl

@[simp] theorem knows_some {part : α} : D.Knows store (some part) ↔ D.Knows store part := by
  simp [Knows, mentions]

@[simp] theorem knows_toArray {parts : List α} :
    D.Knows store parts.toArray ↔ D.Knows store parts :=
  Iff.rfl

/-- The program may know an array if it may know its members. -/
theorem knows_array {parts : Array α} :
    D.Knows store parts ↔ ∀ part ∈ parts.toList, D.Knows store part :=
  knows_list

/-- The program may know a map if it may know its values. -/
theorem knows_map {map : OrderedMap α} :
    D.Knows store map ↔ ∀ value ∈ map.values, D.Knows store value :=
  knows_list

@[simp] theorem knows_empty : D.Knows store (OrderedMap.empty : OrderedMap α) := Knows.of_nil rfl

/-- A value of a map that the program may know. -/
theorem Knows.get? {map : OrderedMap α} {key : String} {value : α} (hmap : D.Knows store map)
    (hget : map.get? key = some value) : D.Knows store value :=
  knows_map.mp hmap value (OrderedMap.mem_values_of_get? hget)

/-- A map with one more value. -/
theorem Knows.insert {map : OrderedMap α} {key : String} {value : α} (hmap : D.Knows store map)
    (hvalue : D.Knows store value) : D.Knows store (map.insert key value) := by
  intro mention hmention
  rcases mem_mentions_insert hmention with hmention | hmention
  · exact hvalue mention hmention
  · exact hmap mention hmention

/-- A map without a key. -/
theorem Knows.erase {map : OrderedMap α} {key : String} (hmap : D.Knows store map) :
    D.Knows store (map.erase key) :=
  knows_map.mpr fun other hother => knows_map.mp hmap other (OrderedMap.mem_values_erase hother)

/-- A map made from a list. -/
theorem knows_ofList {entries : List (String × α)}
    (hentries : ∀ entry ∈ entries, D.Knows store entry.2) :
    D.Knows store (OrderedMap.ofList entries) := by
  refine knows_map.mpr fun other hother => ?_
  obtain ⟨entry, hentry, rfl⟩ := List.mem_map.mp (OrderedMap.mem_values_ofList hother)
  exact hentries entry hentry

/-- A scope with the cells of its chain. -/
theorem knows_scope {scope : Scope} :
    D.Knows store scope ↔
      (∀ mention ∈ scope.home, D.admits store mention) ∧
        D.admits store (.cell scope.here) ∧ D.Knows store scope.outer := by
  simp only [Knows, mentions, List.mem_append, or_imp, forall_and, List.flatMap_cons,
    List.mem_singleton, forall_eq]

/-- The cells of a scope's chain. -/
theorem Knows.admits_of_mem {scope : Scope} {ref : Ref .scope} (hscope : D.Knows store scope)
    (hmem : ref ∈ scope.here :: scope.outer) : D.admits store (.cell ref) := by
  have hchain := (knows_scope.mp hscope).2
  rw [← knows_ref, ← knows_cons, knows_list] at hchain
  exact knows_ref.mp (hchain ref hmem)

/-- A struct with its methods. -/
theorem knows_template {template : StructTemplate} :
    D.Knows store template ↔ D.Knows store template.methods :=
  Iff.rfl

/-- An object with its struct and its fields. -/
theorem knows_instance {made : Instance} :
    D.Knows store made ↔ D.admits store (.cell made.template) ∧ D.Knows store made.fields := by
  rw [← knows_ref]
  exact knows_pair

/-- A function with its scope and its receiver. -/
theorem knows_closure {closure : Closure} :
    D.Knows store closure ↔ D.Knows store closure.scope ∧ D.Knows store closure.receiver? :=
  knows_pair

/-- A namespace with its members. -/
theorem knows_exports {offered : Exports} :
    D.Knows store offered ↔ D.Knows store offered.members :=
  Iff.rfl

section Values

variable {kind : CellKind}

@[simp] theorem knows_value_number (x : Float) : D.Knows store (Value.number x) :=
  Knows.of_nil rfl

@[simp] theorem knows_value_count (n : Nat) : D.Knows store (Value.count n) := Knows.of_nil rfl

@[simp] theorem knows_value_string (text : String) : D.Knows store (Value.string text) :=
  Knows.of_nil rfl

@[simp] theorem knows_value_bool (b : Bool) : D.Knows store (Value.bool b) := Knows.of_nil rfl

@[simp] theorem knows_value_nothing : D.Knows store Value.nothing := Knows.of_nil rfl

@[simp] theorem knows_value_error (kind : ErrorKind) (message : String) :
    D.Knows store (Value.error kind message) :=
  Knows.of_nil rfl

@[simp] theorem knows_value_text {text : TextValue} :
    D.Knows store (Value.text text) ↔ D.Knows store text :=
  Iff.rfl

@[simp] theorem knows_text_buffer {ref : Ref .buffer} :
    D.Knows store (TextValue.buffer ref) ↔ D.admits store (.cell ref) :=
  knows_ref

@[simp] theorem knows_value_array {ref : Ref .array} :
    D.Knows store (Value.array ref) ↔ D.admits store (.cell ref) :=
  knows_ref

@[simp] theorem knows_value_dictionary {ref : Ref .dictionary} :
    D.Knows store (Value.dictionary ref) ↔ D.admits store (.cell ref) :=
  knows_ref

@[simp] theorem knows_value_struct {ref : Ref .struct} :
    D.Knows store (Value.struct ref) ↔ D.admits store (.cell ref) :=
  knows_ref

@[simp] theorem knows_value_object {ref : Ref .object} :
    D.Knows store (Value.object ref) ↔ D.admits store (.cell ref) :=
  knows_ref

@[simp] theorem knows_value_function {ref : Ref .function} :
    D.Knows store (Value.function ref) ↔ D.admits store (.cell ref) :=
  knows_ref

@[simp] theorem knows_value_native {ref : Ref .native} :
    D.Knows store (Value.native ref) ↔ D.admits store (.cell ref) :=
  knows_ref

@[simp] theorem knows_value_exports {ref : Ref .exports} :
    D.Knows store (Value.exports ref) ↔ D.admits store (.cell ref) :=
  knows_ref

@[simp] theorem knows_signal_value {given : Value} :
    D.Knows store (Signal.value given) ↔ D.Knows store given :=
  Iff.rfl

@[simp] theorem knows_signal_returned {given : Value} :
    D.Knows store (Signal.returned given) ↔ D.Knows store given :=
  Iff.rfl

@[simp] theorem knows_signal_exit (exit : LoopExit) : D.Knows store (Signal.exit exit) :=
  Knows.of_nil rfl

end Values

end Data

end Discipline

namespace Result

variable {α : Type} {D : Discipline} {before middle : Store} {given : Store → α → Prop}

/-- A result from a store: the store after it may follow, and its value is as it has to be. -/
def Obeys (D : Discipline) (before : Store) (given : Store → α → Prop) : Result α → Prop
  | .value made after => D.Passes before after.store ∧ given after.store made
  | .interrupted _ after => D.Passes before after.store
  | .halted _ => True

/-- A result from a store that follows another one. -/
theorem Obeys.of_passes {result : Result α} (hresult : result.Obeys D middle given)
    (hpasses : D.Passes before middle) : result.Obeys D before given := by
  cases result with
  | value made after => exact ⟨hpasses.trans hresult.1, hresult.2⟩
  | interrupted interrupt after => exact Discipline.Passes.trans hpasses hresult
  | halted reason => trivial

/-- The state that a result leaves may follow. -/
theorem Obeys.passes {result : Result α} {after : State} (hresult : result.Obeys D before given)
    (hafter : result.after? = some after) : D.Passes before after.store := by
  cases result with
  | value made final =>
    cases hafter
    exact hresult.1
  | interrupted interrupt final =>
    cases hafter
    exact hresult
  | halted reason => cases hafter

end Result

namespace Discipline

/-- A new scope without names. -/
theorem passes_emptyScope {D : Discipline} {store : Store} (hholds : D.holds store) :
    D.Passes store (store.add .scope .empty) ∧
      D.admits (store.add .scope .empty) (.cell (store.next .scope)) := by
  have hempty : ∀ mention ∈ CellKind.mentions .scope .empty, D.admits store mention := by
    rintro mention ⟨⟩
  exact D.add hholds (by simp) hempty trivial

/-- A new scope inside one that the program may know, in which any name can be declared. -/
theorem passes_child {D : Discipline} {store : Store} {scope : Scope} (hholds : D.holds store)
    (hscope : D.Knows store scope) :
    D.Passes store (scope.child store).2 ∧ D.Opens (scope.child store).2 (scope.child store).1 := by
  obtain ⟨hpasses, hadmits⟩ := passes_emptyScope hholds
  obtain ⟨hhome, hchain⟩ := knows_scope.mp (hscope.later hpasses)
  have houter : D.Knows (scope.child store).2 (scope.here :: scope.outer) :=
    knows_cons.mpr ⟨knows_ref.mpr hchain.1, hchain.2⟩
  exact ⟨hpasses, knows_scope.mpr ⟨hhome, hadmits, houter⟩, fun name => D.binds_next name hholds⟩

/-- From a state, a computation takes only steps that the discipline allows, and its value is as it
has to be. -/
def Obeys {α : Type} (D : Discipline) (state : State) (computation : Eval α)
    (given : Store → α → Prop) : Prop :=
  D.holds state.store → (computation state).Obeys D state.store given

namespace Obeys

variable {D : Discipline} {α β : Type} {state : State} {given : Store → α → Prop}

/-- One computation after another one. -/
theorem bind {first : Eval α} {next : α → Eval β} {done : Store → β → Prop}
    (hfirst : D.Obeys state first given)
    (hnext : ∀ made after, D.Passes state.store after.store → given after.store made →
      D.Obeys after (next made) done) : D.Obeys state (first >>= next) done := by
  intro hholds
  have hresult := hfirst hholds
  rw [Eval.bind_apply]
  cases hend : first state with
  | value made after =>
    rw [hend] at hresult
    exact (hnext made after hresult.1 hresult.2 hresult.1.1).of_passes hresult.1
  | interrupted interrupt after =>
    rw [hend] at hresult
    exact hresult
  | halted reason => trivial

/-- Doing nothing. -/
theorem pure {made : α} (hmade : given state.store made) : D.Obeys state (pure made) given :=
  fun hholds => ⟨.refl hholds, hmade⟩

/-- Failing for a reason. -/
theorem fail (cause : Cause) : D.Obeys state (Eval.fail cause) given := fun hholds => .refl hholds

/-- Stopping without an outcome. -/
theorem halt (reason : Halt) : D.Obeys state (Eval.halt reason) given := fun _ => trivial

/-- A value or a failure. -/
theorem lift {outcome : Except Cause α} (hmade : Gives outcome (given state.store)) :
    D.Obeys state (Eval.lift outcome) given := by
  cases outcome with
  | ok made => exact pure (hmade made rfl)
  | error cause => exact fail cause

/-- A truth value or a failure. -/
theorem truth (outcome : Except Cause Bool) : D.Obeys state (Eval.lift outcome) D.Knows :=
  lift fun made _ => knows_bool made

/-- Looking at the store, which can fail. -/
theorem viewOrFail {f : Store → Except Cause α}
    (hmade : D.holds state.store → Gives (f state.store) (given state.store)) :
    D.Obeys state (Eval.viewOrFail f) given := by
  intro hholds
  unfold Eval.viewOrFail
  cases hview : f state.store with
  | ok made => exact ⟨.refl hholds, hmade hholds made hview⟩
  | error cause => exact Passes.refl hholds

/-- What follows a look at the store. -/
theorem afterView {f : Store → α} {next : α → Eval β} {done : Store → β → Prop}
    (hnext : D.Obeys state (next (f state.store)) done) :
    D.Obeys state (Eval.view f >>= next) done :=
  hnext

/-- What follows a look at the store that did not fail. -/
theorem afterViewOrFail {f : Store → Except Cause α} {next : α → Eval β} {done : Store → β → Prop}
    (hnext : Gives (f state.store) fun made => D.Obeys state (next made) done) :
    D.Obeys state (Eval.viewOrFail f >>= next) done := by
  intro hholds
  rw [Eval.bind_apply]
  unfold Eval.viewOrFail
  cases hview : f state.store with
  | ok made => exact hnext made hview hholds
  | error cause => exact Passes.refl hholds

/-- What the program may know depends on the stores that it may meet. -/
theorem of_holds {computation : Eval α}
    (hobeys : D.holds state.store → D.Obeys state computation given) :
    D.Obeys state computation given :=
  fun hholds => hobeys hholds hholds

/-- A new cell, which the program may know from then on. -/
theorem newCell {kind : CellKind} {content : kind.Content} (hkind : kind ≠ .imports)
    (hcontent : ∀ mention ∈ kind.mentions content, D.admits state.store mention)
    (hfits : kind.Fits (D.Known state.store) content) :
    D.Obeys state (Eval.newCell kind content) D.Knows := by
  intro hholds
  obtain ⟨hpasses, hadmits⟩ := D.add hholds hkind hcontent hfits
  exact ⟨hpasses, knows_ref.mpr hadmits⟩

/-- A change of a cell that the program may know. -/
theorem modifyCell {kind : CellKind} {ref : Ref kind} {f : kind.Content → kind.Content}
    (hscope : kind ≠ .scope) (himports : kind ≠ .imports) (href : D.admits state.store (.cell ref))
    (hcontent : D.holds state.store → ∀ mention ∈ kind.mentions (f (state.store.get ref)),
      D.admits state.store mention)
    (hstays : kind.Stays state.store (state.store.get ref) (f (state.store.get ref))) :
    D.Obeys state (Eval.modifyCell ref f) D.Knows :=
  fun hholds => ⟨D.modify hholds hscope himports href (hcontent hholds) hstays, knows_unit ()⟩

/-- Something made out of new cells. -/
theorem allocate {f : Store → α × Store} (hmade : D.holds state.store →
    D.Passes state.store (f state.store).2 ∧ given (f state.store).2 (f state.store).1) :
    D.Obeys state (Eval.allocate f) given :=
  hmade

/-- A new scope inside one that the program may know. -/
theorem newScope {scope : Scope} (hscope : D.Knows state.store scope) :
    D.Obeys state (Eval.newScope scope) D.Opens :=
  allocate fun hholds => passes_child hholds hscope

/-- A binding of a name that the innermost scope may get. -/
theorem bindName {scope : Scope} {name : String} {value : Value}
    (hhere : D.admits state.store (.cell scope.here)) (hbinds : D.binds scope.here name)
    (hvalue : D.Knows state.store value) :
    D.Obeys state (Eval.bindName scope name value) D.Knows :=
  fun hholds => ⟨D.rebind hholds hhere (.inl hbinds) hvalue, knows_unit ()⟩

/-- A declaration of a name that the innermost scope may get. -/
theorem declareName {scope : Scope} {name : String} {value : Value}
    (hhere : D.admits state.store (.cell scope.here)) (hbinds : D.binds scope.here name)
    (hvalue : D.Knows state.store value) :
    D.Obeys state (Eval.declareName scope name value) D.Knows :=
  afterViewOrFail fun _ _ => bindName hhere hbinds hvalue

/-- An assignment to a name that a scope around the program binds. -/
theorem assignName {scope : Scope} {name : String} {value : Value}
    (hscope : D.Knows state.store scope) (hvalue : D.Knows state.store value) :
    D.Obeys state (Eval.assignName scope name value) D.Knows := by
  refine afterViewOrFail fun ref hassignable hholds => ?_
  obtain ⟨hmem, hcontains⟩ := Scope.assignable_eq_ok hassignable
  have href := hscope.admits_of_mem hmem
  exact ⟨D.rebind hholds href (.inr hcontains) hvalue, knows_unit ()⟩

/-- Printing. -/
theorem print (text : String) (failure : Cause) :
    D.Obeys state (Eval.print text failure) D.Knows := by
  intro hholds
  unfold Eval.print
  split
  · exact ⟨.refl hholds, knows_unit ()⟩
  · exact Passes.refl hholds

/-- A new array. -/
theorem newArray {items : List Value} (hitems : D.Knows state.store items) :
    D.Obeys state (Eval.newArray items) D.Knows :=
  bind (newCell (by simp) hitems trivial) fun _ _ _ hmade => pure hmade

end Obeys

end Discipline

end Kestrel
