import Kestrel.Proofs.Discipline.Expression
import Kestrel.Proofs.Eval.Import

/-!
# Statements under a discipline

Every statement respects every discipline if it may declare in its scope what it declares, and so
does every block. Hence an evaluator can be trusted, however many steps it has, and every visit that
an evaluation comes to is ready if the first one is.
-/

namespace Kestrel

namespace Discipline

variable {D : Discipline} {evaluator : Evaluator} {state : State} {store : Store} {scope : Scope}

section Assignments

/-- The value that an assignment writes. -/
theorem Obeys.assignedValue {current : Eval Value} {value : Value}
    (hcurrent : D.Obeys state current D.Knows) (hvalue : D.Knows state.store value)
    (operator : AssignOperator) :
    D.Obeys state (Kestrel.assignedValue operator current value) D.Knows := by
  unfold Kestrel.assignedValue
  split
  · exact pure hvalue
  · exact bind hcurrent fun old after hafter hold => applyBinary hold (hvalue.later hafter) _

/-- An assignment to an index. -/
theorem Obeys.assignIndex {object index value : Value} (hobject : D.Knows state.store object)
    (hvalue : D.Knows state.store value) :
    D.Obeys state (Kestrel.assignIndex object index value) D.Knows := by
  unfold Kestrel.assignIndex
  split
  · refine afterViewOrFail fun place _ => modifyItems (knows_value_array.mp hobject) ?_
    intro items hitems
    refine knows_array.mpr fun part hpart => ?_
    rcases Array.mem_or_eq_of_mem_setIfInBounds (Array.mem_toList_iff.mp hpart) with hpart | rfl
    · exact knows_array.mp hitems part (Array.mem_toList_iff.mpr hpart)
    · exact hvalue
  · exact afterView (modifyEntries (knows_value_dictionary.mp hobject)
      fun entries hentries => hentries.insert hvalue)
  · exact fail _

/-- An assignment to a property of an object or to an entry of a dictionary. -/
theorem Obeys.assignMember {object value : Value} (hobject : D.Knows state.store object)
    (hvalue : D.Knows state.store value) (name : String) :
    D.Obeys state (Kestrel.assignMember object name value) D.Knows := by
  unfold Kestrel.assignMember
  split
  · next ref =>
    have href := knows_value_object.mp hobject
    refine afterView ?_
    split
    · next hdeclared =>
      refine modifyCell (by simp) (by simp) href (fun hholds => ?_) fun hshaped => ?_
      · obtain ⟨htemplate, hfields⟩ := knows_object hholds href
        exact knows_instance.mpr ⟨htemplate, hfields.insert hvalue⟩
      · have hkeys : (state.store.get ref).fields.keys =
            (state.store.get (state.store.get ref).template).properties := hshaped
        exact (OrderedMap.keys_insert_of_mem (by rwa [hkeys]) value).trans hkeys
    · exact fail _
  · exact modifyEntries (knows_value_dictionary.mp hobject)
      fun entries hentries => hentries.insert hvalue
  · exact fail _

/-- An assignment. -/
theorem Respects.executeAssignment (htrusts : D.Trusts evaluator)
    (hscope : D.Knows state.store scope) (target : Expression) (operator : AssignOperator)
    (value : Expression) :
    D.Respects evaluator state
      (fun e => Kestrel.executeAssignment e scope target operator value) D.Knows := by
  unfold Kestrel.executeAssignment
  cases target.form with
  | identifier name =>
    refine bind (expression htrusts hscope value) fun given middle hmiddle hgiven => ?_
    have hlater := hscope.later hmiddle
    exact plain (.bind (.assignedValue (.lookup hlater name) hgiven operator)
      fun written after hafter hwritten => .assignName (hlater.later hafter) hwritten)
  | index object index =>
    refine bind (expression htrusts hscope object) fun changed middle hmiddle hchanged => ?_
    refine bind (expression htrusts (hscope.later hmiddle) index) fun place inner hinner _ => ?_
    refine bind (expression htrusts (hscope.later (hmiddle.trans hinner)) value)
      fun given last hlast hgiven => plain ?_
    have hobject := hchanged.later (hinner.trans hlast)
    have hcurrent : D.Obeys last
        (Eval.viewOrFail fun store => indexValue store changed place) D.Knows :=
      .viewOrFail fun hholds => gives_indexValue hholds hobject place
    exact .bind (.assignedValue hcurrent hgiven operator) fun written after hafter hwritten =>
      .assignIndex (hobject.later hafter) hwritten
  | member object property =>
    refine bind (expression htrusts hscope object) fun changed middle hmiddle hchanged => ?_
    refine bind (expression htrusts (hscope.later hmiddle) value)
      fun given last hlast hgiven => plain ?_
    have hobject := hchanged.later hlast
    exact .bind (.assignedValue (.getProperty hobject property.name) hgiven operator)
      fun written after hafter hwritten => .assignMember (hobject.later hafter) hwritten _
  | _ => exact plain (.fail _)

end Assignments

section Blocks

variable (htrusts : D.Trusts evaluator) (hscope : D.Knows state.store scope)

include htrusts hscope

/-- A block in a new scope. -/
theorem Respects.executeScoped (block : Block) :
    D.Respects evaluator state (fun e => Kestrel.executeScoped e scope block) D.Knows :=
  bind (plain (.newScope hscope)) fun _ _ _ hinner => Respects.block htrusts hinner block.statements

/-- The branches of an `if`. -/
theorem Respects.executeBranches (otherwise : Option Block) (branches : List Branch) :
    D.Respects evaluator state
      (fun e => Kestrel.executeBranches e scope otherwise branches) D.Knows := by
  induction branches generalizing state with
  | nil =>
    cases otherwise with
    | none => exact plain (.pure knows_value_nothing)
    | some block => exact executeScoped htrusts hscope block
  | cons branch others ih =>
    refine bind (expression htrusts hscope branch.condition) fun value middle hmiddle _ => ?_
    refine bind (plain (.truth _)) fun truth after hafter _ => ?_
    have hlater := hscope.later (hmiddle.trans hafter)
    exact ite (executeScoped htrusts hlater branch.body) (ih hlater)

/-- A loop that only its body can end. -/
theorem Respects.executeLoop (body : Block) (rounds : Nat) :
    D.Respects evaluator state (fun e => Kestrel.executeLoop e scope body rounds) D.Knows := by
  induction rounds generalizing state with
  | zero => exact plain (.halt _)
  | succ rounds ih =>
    refine bind (executeScoped htrusts hscope body) fun signal after hafter hsignal => ?_
    have hagain := ih (hscope.later hafter)
    cases signal with
    | value value => exact hagain
    | returned value => exact plain (.pure hsignal)
    | exit exit =>
      cases exit with
      | breaking => exact plain (.pure knows_value_nothing)
      | continuing => exact hagain

omit htrusts hscope in
/-- The entries of a collection that the program may know. -/
theorem gives_iterationEntries {collection : Value} (hholds : D.holds store)
    (hcollection : D.Knows store collection) :
    Gives (iterationEntries store collection) (D.Knows store) := by
  unfold iterationEntries
  cases collection with
  | array ref =>
    refine gives_ok.mpr (knows_list.mpr fun entry hentry => ?_)
    obtain ⟨item, hitem, rfl⟩ := List.mem_map.mp hentry
    have hitems := knows_array.mp (knows_items hholds (knows_value_array.mp hcollection))
    exact knows_pair.mpr ⟨knows_value_count _, hitems _ (List.fst_mem_of_mem_zipIdx hitem)⟩
  | dictionary ref =>
    refine gives_ok.mpr (knows_list.mpr fun entry hentry => ?_)
    obtain ⟨item, hitem, rfl⟩ := List.mem_map.mp hentry
    have hentries := knows_map.mp (knows_entries hholds (knows_value_dictionary.mp hcollection))
    exact knows_pair.mpr ⟨knows_value_string _, hentries _ (List.mem_map_of_mem hitem)⟩
  | text text =>
    refine gives_ok.mpr (knows_list.mpr fun entry hentry => ?_)
    obtain ⟨item, _, rfl⟩ := List.mem_map.mp hentry
    exact knows_pair.mpr ⟨knows_value_count _, knows_value_string _⟩
  | _ => exact gives_error

omit htrusts in
/-- The scope of a round of a loop is new. -/
theorem Obeys.iterationScope (index : Option Identifier) (item : Identifier)
    {entry : Value × Value} (hentry : D.Knows state.store entry) :
    D.Obeys state (Kestrel.iterationScope scope index item entry) D.Opens := by
  refine bind (newScope hscope) fun inner middle hmiddle hinner => ?_
  obtain ⟨hkey, hitem⟩ := knows_pair.mp (hentry.later hmiddle)
  have hhere := (knows_scope.mp hinner.1).2.1
  have hbound {after : State} (hafter : D.Passes middle.store after.store) :
      D.Obeys after (do
        Eval.bindName inner item.name entry.2
        return inner) D.Opens :=
    bind (bindName (D.admits_later hafter.2 hhere) (hinner.2 item.name) (hitem.later hafter))
      fun _ _ hpasses _ => pure ((hinner.later hafter).later hpasses)
  cases index with
  | none => exact of_holds fun hholds => hbound (.refl hholds)
  | some index =>
    exact bind (bindName hhere (hinner.2 index.name) hkey) fun _ _ hafter _ => hbound hafter

/-- A loop over entries. -/
theorem Respects.executeRounds (index : Option Identifier) (item : Identifier) (body : Block)
    {entries : List (Value × Value)} (hentries : D.Knows state.store entries) :
    D.Respects evaluator state
      (fun e => Kestrel.executeRounds e scope index item body entries) D.Knows := by
  induction entries generalizing state with
  | nil => exact plain (.pure knows_value_nothing)
  | cons entry others ih =>
    obtain ⟨hentry, hothers⟩ := knows_cons.mp hentries
    refine bind (plain (.iterationScope hscope index item hentry))
      fun inner middle hmiddle hinner => ?_
    refine bind (block htrusts hinner body.statements) fun signal after hafter hsignal => ?_
    have hpasses := hmiddle.trans hafter
    have hagain := ih (hscope.later hpasses) (hothers.later hpasses)
    cases signal with
    | value value => exact hagain
    | returned value => exact plain (.pure hsignal)
    | exit exit =>
      cases exit with
      | breaking => exact plain (.pure knows_value_nothing)
      | continuing => exact hagain

end Blocks

section Declarations

/-- Where no name is repeated, all names are different. -/
theorem nodup_of_firstRepeated_eq_none {seen names : List String} (hseen : seen.Nodup)
    (hnone : firstRepeated seen names = none) : (seen ++ names).Nodup := by
  induction names generalizing seen with
  | nil => rwa [List.append_nil]
  | cons name others ih =>
    rw [firstRepeated] at hnone
    split_ifs at hnone with hmem
    rw [List.append_cons]
    refine ih (List.nodup_append.mpr ⟨hseen, by simp, ?_⟩) hnone
    rintro first hfirst second hsecond rfl
    exact hmem (List.mem_singleton.mp hsecond ▸ hfirst)

/-- A struct declaration. -/
theorem Obeys.executeStruct (hscope : D.Knows state.store scope)
    {declaration : StructDeclaration} (hbinds : D.binds scope.here declaration.name.name) :
    D.Obeys state (Kestrel.executeStruct scope declaration) D.Knows := by
  unfold Kestrel.executeStruct
  dsimp only
  split
  · exact fail _
  · next hnone =>
    have hblank : D.Knows state.store (⟨declaration.name.name,
        declaration.properties.map Identifier.name, .empty⟩ : StructTemplate) :=
      knows_template.mpr knows_empty
    have hnodup := nodup_of_firstRepeated_eq_none List.nodup_nil hnone
    refine bind (newCell (by simp) hblank hnodup) fun ref after hafter href => ?_
    exact declareName (D.admits_later hafter.2 (knows_scope.mp hscope).2.1) hbinds
      (knows_value_struct.mpr (knows_ref.mp href))

/-- A declaration of a method. -/
theorem Obeys.executeMethod (hscope : D.Knows state.store scope) (structName : Identifier)
    (function : FunctionDeclaration) :
    D.Obeys state (Kestrel.executeMethod scope structName function) D.Knows := by
  refine bind (lookup hscope structName.name) fun owner middle hmiddle howner => ?_
  split
  · next ref =>
    have href := knows_value_struct.mp howner
    refine afterView ?_
    split
    · exact fail _
    · refine bind (newFunction (hscope.later hmiddle) _ _ _ _) fun method after hafter hmethod => ?_
      have hlater := D.admits_later hafter.2 href
      refine modifyCell (by simp) (by simp) hlater (fun hholds => ?_) rfl
      exact knows_template.mpr ((knows_methods hholds hlater).insert hmethod)
  · exact fail _

end Declarations

section Imports

/-- A value that a library offers. -/
theorem Obeys.libraryValue (member : LibraryMember) :
    D.Obeys state (Kestrel.libraryValue member) D.Knows := by
  cases member with
  | number x => exact pure (knows_value_number x)
  | text content => exact pure (knows_value_string content)
  | function builtin =>
    have hbuiltin : D.Knows state.store (Native.builtin builtin) := Knows.of_nil rfl
    exact bind (newCell (by simp) hbuiltin trivial) fun _ _ _ hmade => pure hmade

/-- The members of a library. -/
theorem Obeys.libraryMembers {members : OrderedMap Value} (hmembers : D.Knows state.store members)
    (list : List (String × LibraryMember)) :
    D.Obeys state (Kestrel.libraryMembers members list) D.Knows := by
  induction list generalizing members state with
  | nil => exact pure hmembers
  | cons entry others ih =>
    exact bind (libraryValue entry.2) fun value after hafter hvalue =>
      ih ((hmembers.later hafter).insert hvalue)

/-- A namespace under an alias. -/
theorem Obeys.bindExports (hhere : D.admits state.store (.cell scope.here)) {name : String}
    (hbinds : D.binds scope.here name) {ref : Ref .exports} (href : D.Knows state.store ref) :
    D.Obeys state (Eval.bindName scope name (.exports ref)) D.Knows :=
  bindName hhere hbinds (knows_value_exports.mpr (knows_ref.mp href))

/-- An import of a native library. -/
theorem Obeys.importLibrary (hscope : D.Knows state.store scope) {name : String}
    (hbinds : D.binds scope.here name) (library : Library) :
    D.Obeys state (Kestrel.importLibrary scope library name) D.Knows := by
  have hhere := (knows_scope.mp hscope).2.1
  have hcontent : D.Obeys state (Eval.lift (library.content name)) fun _ _ => True :=
    lift gives_true
  refine bind hcontent fun content middle hmiddle _ => ?_
  cases content with
  | single member =>
    exact bind (libraryValue member) fun value after hafter hvalue =>
      bindName (D.admits_later (hmiddle.trans hafter).2 hhere) hbinds hvalue
  | members list =>
    refine bind (libraryMembers knows_empty list) fun members after hafter hmembers => ?_
    have hoffered : D.Knows after.store (⟨name, members⟩ : Exports) := knows_exports.mpr hmembers
    refine bind (newCell (by simp) hoffered trivial) fun ref last hlast href => ?_
    exact bindExports (D.admits_later ((hmiddle.trans hafter).trans hlast).2 hhere) hbinds href

/-- The names of functions can be bound in a scope in which any name can be declared. -/
theorem passes_bindBuiltins (hholds : D.holds store) (hscope : D.Opens store scope)
    (functions : List Builtin) : D.Passes store (scope.bindBuiltins store functions) := by
  induction functions generalizing store with
  | nil => exact .refl hholds
  | cons function others ih =>
    have hbuiltin : D.Knows store (Native.builtin function) := Knows.of_nil rfl
    obtain ⟨hadded, hnative⟩ :=
      @D.add store .native (.builtin function) hholds (by simp) hbuiltin trivial
    have hlater := hscope.later hadded
    have hbound : D.Passes _ _ := D.rebind hadded.1 (knows_scope.mp hlater.1).2.1
      (.inl (hlater.2 function.name)) (knows_value_native.mpr hnative)
    have hpasses := Passes.trans hadded hbound
    exact hpasses.trans (ih hbound.1 (hscope.later hpasses))

/-- The scope of a module that the program may know is new. -/
theorem passes_ofModule {key : String} {imports : Ref .imports} (hholds : D.holds store)
    (hkey : D.admits store (.module key)) (himports : D.admits store (.cell imports)) :
    D.Passes store (Scope.ofModule store key imports).2 ∧
      D.Opens (Scope.ofModule store key imports).2 (Scope.ofModule store key imports).1 := by
  obtain ⟨hroot, hadmits⟩ := passes_emptyScope hholds
  have houtermost : D.Opens (Scope.root store key imports).2 (Scope.root store key imports).1 := by
    refine ⟨knows_scope.mpr ⟨?_, hadmits, knows_nil⟩, fun name => D.binds_next name hholds⟩
    simpa [Scope.home, Scope.root] using
      ⟨D.admits_later hroot.2 hkey, D.admits_later hroot.2 himports⟩
  have hbuiltins := passes_bindBuiltins hroot.1 houtermost Builtin.everywhere
  obtain ⟨hchild, hopens⟩ := passes_child hbuiltins.1 (houtermost.later hbuiltins).1
  exact ⟨(Passes.trans hroot hbuiltins).trans hchild, hopens⟩

/-- A noted import, after which the program may know the module. -/
theorem Obeys.recordImport (hhome : ∀ mention ∈ scope.home, D.admits state.store mention)
    (target : String) :
    D.Obeys state (Kestrel.recordImport scope target)
      fun store _ => D.admits store (.module target) := by
  have hmodule : D.admits state.store (.module scope.module) := hhome _ (by simp [Scope.home])
  have himports : D.admits state.store (.cell scope.imports) := hhome _ (by simp [Scope.home])
  exact afterViewOrFail fun graph hrecord hholds => D.record hholds himports hmodule hrecord

/-- An opened module has a scope of its own, in which any name can be declared. -/
theorem Obeys.openModule (hhome : ∀ mention ∈ scope.home, D.admits state.store mention)
    (loader : Loader) (path : String) :
    D.Obeys state (Kestrel.openModule loader scope path)
      fun store opened => D.Opens store opened.1 := by
  have himports : D.admits state.store (.cell scope.imports) := hhome _ (by simp [Scope.home])
  have hload : D.Obeys state (loadModule loader path scope.module) fun _ _ => True := by
    unfold loadModule
    split
    · exact pure trivial
    · exact fail _
    · exact halt _
  refine bind hload fun source loaded hloaded _ => ?_
  have hlater : ∀ mention ∈ scope.home, D.admits loaded.store mention :=
    fun mention hmention => D.admits_later hloaded.2 (hhome mention hmention)
  refine bind (recordImport hlater source.key) fun _ noted hnoted hkey => ?_
  split
  · exact fail _
  · have hlater := D.admits_later (hloaded.trans hnoted).2 himports
    exact bind (allocate fun hholds => passes_ofModule hholds hkey hlater)
      fun inner after _ hinner => pure hinner

/-- A program in the scope of its module. -/
theorem Respects.executeProgram (htrusts : D.Trusts evaluator) (hopens : D.Opens state.store scope)
    (statements : List Statement) :
    D.Respects evaluator state (fun e => Kestrel.executeProgram e scope statements) D.Knows := by
  refine bind (block htrusts hopens statements) fun signal after _ hsignal => ?_
  cases signal with
  | value given => exact plain (.pure hsignal)
  | returned given => exact plain (.pure hsignal)
  | exit exit => exact plain (.fail _)

/-- What a module offers is a new namespace. -/
theorem Respects.offerModule (htrusts : D.Trusts evaluator) {opened : Scope × Program}
    (hopens : D.Opens state.store opened.1) (name : String) :
    D.Respects evaluator state (fun e => Kestrel.offerModule e name opened) D.Knows := by
  have hprogram := executeProgram htrusts hopens opened.2.statements
  refine bind hprogram fun _ after hafter _ => plain (.of_holds fun hholds => .afterView ?_)
  have hbindings := knows_bindings hholds (knows_scope.mp (hopens.later hafter).1).2.1
  have hoffered : D.Knows after.store (⟨name, opened.1.bindings after.store⟩ : Exports) :=
    knows_exports.mpr hbindings
  exact .newCell (by simp) hoffered trivial

/-- An import. -/
theorem Respects.executeImport (htrusts : D.Trusts evaluator) (hscope : D.Knows state.store scope)
    {declaration : ImportDeclaration} (hbinds : D.binds scope.here declaration.bindingName)
    (host : Host) :
    D.Respects evaluator state (fun e => Kestrel.executeImport host e scope declaration)
      D.Knows := by
  unfold Kestrel.executeImport
  split
  · next library _ => exact plain (.importLibrary hscope hbinds library)
  · simp only [importModule_eq]
    obtain ⟨hhome, hhere, _⟩ := knows_scope.mp hscope
    refine bind (plain (.openModule hhome _ _)) fun opened middle hmiddle hopens => ?_
    refine bind (offerModule htrusts hopens _) fun offered after hafter hoffered => plain ?_
    exact .bindExports (D.admits_later (hmiddle.trans hafter).2 hhere) hbinds hoffered

end Imports

/-- What every statement does, in a scope in which it may declare what it declares. -/
theorem Respects.executeForm (htrusts : D.Trusts evaluator) (hscope : D.Knows state.store scope)
    {form : StatementForm}
    (hbinds : ∀ name, form.declaredName? = some name → D.binds scope.here name) (host : Host) :
    D.Respects evaluator state (fun e => Kestrel.executeForm host e scope form) D.Knows := by
  have hhere := (knows_scope.mp hscope).2.1
  have hdone {after : State} : D.Respects evaluator after
      (fun _ => (pure (Signal.value .nothing) : Eval Signal)) D.Knows :=
    plain (.pure knows_value_nothing)
  unfold Kestrel.executeForm
  cases form with
  | var name value _ =>
    refine bind (expression htrusts hscope value) fun given middle hmiddle hgiven => ?_
    exact bind (plain (.declareName (D.admits_later hmiddle.2 hhere) (hbinds _ rfl) hgiven))
      fun _ _ _ _ => hdone
  | assignment target operator value _ =>
    exact bind (executeAssignment htrusts hscope target operator value) fun _ _ _ _ => hdone
  | expression value =>
    exact bind (expression htrusts hscope value) fun _ _ _ hgiven => plain (.pure hgiven)
  | conditional branches otherwise _ => exact executeBranches htrusts hscope otherwise branches
  | loop body _ =>
    exact @rounds D evaluator state Signal D.Knows
      (fun count e => Kestrel.executeLoop e scope body count) (executeLoop htrusts hscope body _)
  | forEach index item iterable body _ =>
    refine bind (expression htrusts hscope iterable) fun collection middle hmiddle hcollection => ?_
    have hentries : D.Obeys middle
        (Eval.viewOrFail fun store => iterationEntries store collection) D.Knows :=
      .viewOrFail fun hholds => gives_iterationEntries hholds hcollection
    exact bind (plain hentries) fun entries after hafter hknown =>
      executeRounds htrusts (hscope.later (hmiddle.trans hafter)) index item body hknown
  | function declaration =>
    refine bind (plain (.newFunction hscope _ _ _ _)) fun ref middle hmiddle href => ?_
    have hfunction := knows_value_function.mpr (knows_ref.mp href)
    exact bind (plain (.declareName (D.admits_later hmiddle.2 hhere) (hbinds _ rfl) hfunction))
      fun _ _ _ _ => hdone
  | struct declaration =>
    exact bind (plain (.executeStruct hscope (hbinds _ rfl))) fun _ _ _ _ => hdone
  | method structName function _ =>
    exact bind (plain (.executeMethod hscope structName function)) fun _ _ _ _ => hdone
  | attempt body catchBlock finallyBlock _ =>
    exact executeAttempt htrusts hscope body catchBlock finallyBlock
  | returning value =>
    cases value with
    | none => exact plain (.pure knows_value_nothing)
    | some value =>
      exact bind (expression htrusts hscope value) fun _ _ _ hgiven => plain (.pure hgiven)
  | breaking => exact plain (.pure (knows_signal_exit _))
  | continuing => exact plain (.pure (knows_signal_exit _))
  | importing declaration =>
    exact bind (executeImport htrusts hscope (hbinds _ rfl) host) fun _ _ _ _ => hdone

/-- Statements in a row, in a scope in which any name can be declared. -/
theorem Respects.executeRow (htrusts : D.Trusts evaluator) (hscope : D.Opens state.store scope)
    {last : Value} (hlast : D.Knows state.store last) (statements : List Statement) :
    D.Respects evaluator state (fun e => Kestrel.executeRow e scope last statements) D.Knows := by
  induction statements generalizing last state with
  | nil => exact plain (.pure hlast)
  | cons statement others ih =>
    have hready : D.Ready state.store (.statement scope statement) :=
      ⟨hscope.1, fun name _ => hscope.2 name⟩
    refine bind (perform htrusts hready) fun signal after hafter hsignal => ?_
    cases signal with
    | value value => exact ih (hscope.later hafter) hsignal
    | returned value => exact plain (.pure hsignal)
    | exit exit => exact plain (.pure hsignal)

/-- Every task that is ready. -/
theorem Respects.unsettled (htrusts : D.Trusts evaluator) {task : Task}
    (hready : D.Ready state.store task) (host : Host) :
    D.Respects evaluator state (task.unsettled host) (D.KnowsOutcome task) := by
  cases task with
  | expression scope part => exact evaluateExpression htrusts hready host part
  | statement scope part => exact executeForm htrusts hready.1 hready.2 host
  | block scope parts => exact executeRow htrusts hready knows_value_nothing parts

/-- A statement obeys the discipline at its end, too. -/
theorem Obeys.construct {host : Host} {task : Task}
    (hobeys : D.Obeys state (task.unsettled host evaluator) (D.KnowsOutcome task)) :
    D.Obeys state (task.construct host evaluator) (D.KnowsOutcome task) := by
  cases task with
  | expression scope part => exact hobeys
  | block scope parts => exact hobeys
  | statement scope part =>
    intro hholds
    have hresult := hobeys hholds
    simp only [Task.construct, executeStatement_apply]
    simp only [Task.unsettled] at hresult
    cases hend : executeForm host evaluator scope part.form state with
    | value signal after =>
      rw [hend] at hresult
      exact hresult
    | halted reason => trivial
    | interrupted interrupt after =>
      rw [hend] at hresult
      cases interrupt with
      | error error => exact hresult
      | loopExit exit => exact ⟨hresult, knows_signal_exit exit⟩

/-- Every evaluator obeys every discipline. -/
theorem trusts_ofSteps (D : Discipline) (host : Host) (steps : Nat) :
    D.Trusts (.ofSteps host steps) := by
  induction steps with
  | zero =>
    intro task state _ _
    have hend := Evaluator.outcome_ofSteps_zero host ⟨task, state⟩
    unfold Evaluator.outcome at hend
    rw [hend]
    trivial
  | succ steps ih =>
    intro task state hready
    rw [Evaluator.perform_ofSteps_succ]
    exact .construct (Respects.unsettled ih hready host).obeys

end Discipline

/-- A visit that is ready leads only to visits that are ready. -/
theorem Leads.begins {D : Discipline} {host : Host} {steps : Nat} {outer inner : Visit}
    (hleads : Leads host steps outer inner) (hholds : D.holds outer.state.store)
    (hready : D.Ready outer.state.store outer.task) : D.Begins outer.state.store inner := by
  have hrespects := Discipline.Respects.unsettled (D.trusts_ofSteps host steps) hready host
  refine (hrespects.visits hholds inner).resolve_left fun hignores => ?_
  exact hignores.not_asks (Task.asks_construct_iff.mp hleads)

/-- A visit that is ready reaches only visits that are ready. -/
theorem Reaches.begins {D : Discipline} {host : Host} {steps left : Nat} {outer inner : Visit}
    (hreaches : Reaches host steps outer left inner) (hholds : D.holds outer.state.store)
    (hready : D.Ready outer.state.store outer.task) : D.Begins outer.state.store inner := by
  induction hreaches with
  | refl steps visit => exact ⟨.refl hholds, hready⟩
  | step hleads _ ih =>
    have hmiddle := hleads.begins hholds hready
    exact (ih hmiddle.1.1 hmiddle.2).of_passes hmiddle.1

end Kestrel
