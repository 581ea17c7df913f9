import Kestrel.Proofs.Eval.Course

/-!
# The phases of an import

The import of a module finds the module, notes the import and makes the scope of the module; then
it leaves the module's program to the evaluator; and then it binds what the module offers. This file
says in which scope and state the program begins, and that the import asks for nothing else.
-/

namespace Kestrel

open Eval

/-- The scope of a module that is about to be imported, with the module's program. -/
def openModule (loader : Loader) (scope : Scope) (path : String) : Eval (Scope × Program) := do
  let source ← loadModule loader path scope.module
  recordImport scope source.key
  match parseProgram source.source (some source.key) with
  | .error error => fail (.importFailed source.key error.message)
  | .ok program =>
    let inner ← allocate fun store => Scope.ofModule store source.key scope.imports
    return (inner, program)

/-- What a module offers, in a new namespace, once its program was run in its scope. -/
def offerModule (evaluator : Evaluator) (name : String) (opened : Scope × Program) :
    Eval (Ref .exports) := do
  let _ ← executeProgram evaluator opened.1 opened.2.statements
  let members ← view opened.1.bindings
  newCell .exports ⟨name, members⟩

/-- The import of a module opens the module, runs its program and binds what it offers. -/
theorem importModule_eq (host : Host) (evaluator : Evaluator) (scope : Scope)
    (path name : String) : importModule host evaluator scope path name = (do
      let opened ← openModule host.loader scope path
      let offered ← offerModule evaluator name opened
      bindName scope name (.exports offered)) := by
  unfold importModule openModule offerModule
  simp only [bind_assoc]
  refine bind_congr fun source => bind_congr fun _ => ?_
  cases parseProgram source.source (some source.key) with
  | error error => rfl
  | ok program => simp only [bind_assoc, pure_bind]

section Open

variable {loader : Loader} {scope inner : Scope} {path : String} {program : Program}
  {state start : State}

/-- A module that was found is what the loader gave. -/
theorem loadModule_eq_value {importer : String} {source : ModuleSource}
    (hfound : loadModule loader path importer state = .value source start) :
    loader.load path importer = .module source ∧ start = state := by
  unfold loadModule at hfound
  cases hload : loader.load path importer with
  | module given =>
    rw [hload] at hfound
    cases hfound
    exact ⟨rfl, rfl⟩
  | refused reason =>
    rw [hload] at hfound
    cases hfound
  | awaiting file =>
    rw [hload] at hfound
    cases hfound

/-- An import was noted if this closed no cycle. -/
theorem recordImport_eq_value {target : String}
    (hnoted : recordImport scope target state = .value () start) :
    ∃ graph, (state.store.get scope.imports).record target scope.module = .ok graph ∧
      start = { state with store := state.store.modify scope.imports fun _ => graph } := by
  unfold recordImport at hnoted
  obtain ⟨graph, middle, hview, hchange⟩ := bind_eq_value hnoted
  obtain ⟨hrecord, rfl⟩ := viewOrFail_eq_value hview
  cases hchange
  exact ⟨graph, hrecord, rfl⟩

/-- What is made out of new cells is made at once, and nothing else is changed. -/
theorem allocate_eq_value {α : Type} {f : Store → α × Store} {made : α}
    (hallocated : allocate f state = .value made start) :
    f state.store = (made, start.store) ∧ start.calls = state.calls ∧
      start.output = state.output := by
  unfold allocate at hallocated
  cases hmade : f state.store with
  | mk given store =>
    rw [hmade] at hallocated
    cases hallocated
    exact ⟨rfl, rfl, rfl⟩

/-- A module that was opened is the one that the loader gave. Its import has been noted, and its
scope has been made after that. -/
theorem openModule_eq_value
    (hopen : openModule loader scope path state = .value (inner, program) start) :
    ∃ source graph,
      loader.load path scope.module = .module source ∧
      (state.store.get scope.imports).record source.key scope.module = .ok graph ∧
      Scope.ofModule (state.store.modify scope.imports fun _ => graph) source.key scope.imports =
        (inner, start.store) ∧
      start.calls = state.calls ∧ start.output = state.output := by
  unfold openModule at hopen
  obtain ⟨source, loaded, hfound, hrest⟩ := bind_eq_value hopen
  obtain ⟨hload, rfl⟩ := loadModule_eq_value hfound
  obtain ⟨_, noted, hnoted, hmade⟩ := bind_eq_value hrest
  obtain ⟨graph, hrecord, rfl⟩ := recordImport_eq_value hnoted
  refine ⟨source, graph, hload, hrecord, ?_⟩
  cases hprogram : parseProgram source.source (some source.key) with
  | error error =>
    rw [hprogram] at hmade
    cases hmade
  | ok parsed =>
    simp only [hprogram] at hmade
    obtain ⟨made, final, hallocated, hpair⟩ := bind_eq_value hmade
    obtain ⟨hmodule, rfl⟩ := pure_eq_value hpair
    obtain ⟨rfl, rfl⟩ := Prod.mk.inj hmodule
    have hscope := allocate_eq_value hallocated
    exact hscope

end Open

section Asks

variable {host : Host} {scope : Scope} {evaluator : Evaluator} {state : State} {visit : Visit}

/-- The import of a module asks for the module's program once the module was opened, and for
nothing else. -/
theorem asks_importModule_iff {path name : String} :
    Asks (fun e => importModule host e scope path name) evaluator state visit ↔
      ∃ inner program start,
        openModule host.loader scope path state = .value (inner, program) start ∧
          visit = ⟨.block inner program.statements, start⟩ := by
  have hopens := ignores_const (openModule host.loader scope path) evaluator state visit
  have hoffers (opened : Scope × Program) (start : State) :
      Asks (fun e => offerModule e name opened >>= fun offered =>
          bindName scope name (.exports offered)) evaluator start visit ↔
        visit = ⟨.block opened.1 opened.2.statements, start⟩ := by
    unfold offerModule
    simp only [bind_assoc]
    rw [(Composed.executeProgram opened.1 opened.2.statements).asks_bind_iff,
      asks_executeProgram_iff, or_iff_left]
    rintro ⟨value, after, _, hasks⟩
    exact (ignores_const _ _ _ _).not_asks hasks
  simp only [importModule_eq]
  rw [asks_bind_iff (.inr hopens), or_iff_right hopens.not_asks]
  constructor
  · rintro ⟨⟨inner, program⟩, start, hopen, hasks⟩
    exact ⟨inner, program, start, hopen, (hoffers _ start).mp hasks⟩
  · rintro ⟨inner, program, start, hopen, hvisit⟩
    exact ⟨(inner, program), start, hopen, (hoffers _ start).mpr hvisit⟩

/-- An import leads to the program of the module that it opens, and to nothing else. An import of a
native library leads to nothing. -/
theorem leads_import_iff {steps : Nat} {declaration : ImportDeclaration} {span : Span} :
    Leads host steps ⟨.statement scope ⟨.importing declaration, span⟩, state⟩ visit ↔
      (host.libraries.find? fun library => library.name = declaration.path) = none ∧
        ∃ inner program start,
          openModule host.loader scope declaration.path state = .value (inner, program) start ∧
            visit = ⟨.block inner program.statements, start⟩ := by
  refine Task.asks_construct_iff.trans ?_
  have hform : (fun e => executeForm host e scope (.importing declaration)) = fun e =>
      executeImport host e scope declaration >>= fun _ => pure (.value .nothing) := rfl
  change Asks (fun e => executeForm host e scope (.importing declaration)) _ _ _ ↔ _
  rw [hform, (Composed.executeImport host scope declaration).asks_bind_iff, or_iff_left]
  · unfold executeImport
    cases host.libraries.find? fun library => library.name = declaration.path with
    | some library =>
      simp only [reduceCtorEq, false_and, iff_false]
      exact (ignores_const _ _ _ _).not_asks
    | none => simpa using asks_importModule_iff
  · rintro ⟨value, after, _, hasks⟩
    exact (ignores_const _ _ _ _).not_asks hasks

end Asks

end Kestrel
