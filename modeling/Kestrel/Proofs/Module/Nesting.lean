import Kestrel.Proofs.Discipline.Realm
import Kestrel.Session

/-!
# Modules inside modules

The program of a module begins when the module is entered: as the module of a run, or by an import.
While it is carried out, its code can call functions of other modules, and these can import in turn,
in the name of their own module. This file shows that no module is entered while its program is
still being carried out: chains of noted imports lead from all modules that were entered to the
module of the code that goes on, and an import that would close a cycle is refused.
-/

namespace Kestrel

open Relation (ReflTransGen)

/-- The module that is entered from one visit to the next one: an import leads to its program. -/
def Visit.entered? (outer inner : Visit) : Option String :=
  match outer.task, inner.task with
  | .statement _ ⟨.importing _, _⟩, .block scope _ => some scope.module
  | _, _ => none

/-- With so many steps, the evaluation of a visit comes to another one, for which the second number
of steps is left. The list has the modules entered on the way, whose imports are all unfinished. -/
inductive Enters (host : Host) : Nat → Visit → List String → Nat → Visit → Prop
  | refl (steps : Nat) (visit : Visit) : Enters host steps visit [] steps visit
  | step {steps left : Nat} {outer middle inner : Visit} {keys : List String}
    (hleads : Leads host steps outer middle) (henters : Enters host steps middle keys left inner) :
    Enters host (steps + 1) outer ((outer.entered? middle).toList ++ keys) left inner

/-- Every visit that is reached is reached by way of some modules. -/
theorem Reaches.enters {host : Host} {steps left : Nat} {outer inner : Visit}
    (hreaches : Reaches host steps outer left inner) :
    ∃ keys, Enters host steps outer keys left inner := by
  induction hreaches with
  | refl steps visit => exact ⟨[], .refl steps visit⟩
  | step hleads _ ih =>
    obtain ⟨keys, henters⟩ := ih
    exact ⟨_, .step hleads henters⟩

/-- The loader can give a module with a key. -/
def Loader.Offers (loader : Loader) (key : String) : Prop :=
  ∃ path importer source, loader.load path importer = .module source ∧ source.key = key

/-- A visit that enters a module begins with the module's program, where the import opened it. -/
theorem Leads.exists_opened {host : Host} {steps : Nat} {outer inner : Visit} {key : String}
    (hleads : Leads host steps outer inner) (hentered : outer.entered? inner = some key) :
    ∃ scope declaration span state opened program start,
      outer = ⟨.statement scope ⟨.importing declaration, span⟩, state⟩ ∧
      openModule host.loader scope declaration.path state = .value (opened, program) start ∧
      inner = ⟨.block opened program.statements, start⟩ ∧ opened.module = key := by
  obtain ⟨task, state⟩ := outer
  unfold Visit.entered? at hentered
  split at hentered
  · next scope declaration span opened statements htask hinner =>
    cases htask
    obtain ⟨_, opened, program, start, hopen, rfl⟩ := leads_import_iff.mp hleads
    cases hinner
    exact ⟨scope, declaration, span, state, _, program, start, rfl, hopen, rfl,
      Option.some.inj hentered⟩
  · cases hentered

namespace Realm

variable {R : Realm} {store before after : Store} {scope : Scope}

/-- A scope in which the module of a realm is run. -/
structure Houses (R : Realm) (store : Store) (scope : Scope) : Prop where
  home_eq : R.home? = some scope.module
  closed : R.Closed store
  opens : R.discipline.Opens store scope

/-- The module of a realm is still run in its scope after what the realm allows. -/
theorem Houses.later (hhouses : R.Houses before scope)
    (hpasses : R.discipline.Passes before after) : R.Houses after scope :=
  ⟨hhouses.home_eq, hpasses.1, hhouses.opens.later hpasses⟩

/-- The scope that is made for a module begins a realm. -/
theorem houses_ofModule (key : String) {tracker : Ref .imports}
    (htracker : tracker.index < store.size .imports) :
    (since store tracker (some key)).Keeps store (Scope.ofModule store key tracker).2 ∧
      (since store tracker (some key)).Houses (Scope.ofModule store key tracker).2
        (Scope.ofModule store key tracker).1 := by
  have hclosed : (since store tracker (some key)).Closed store := closed_since fun _ => htracker
  have hkey : (since store tracker (some key)).Admits store (.module key) := by
    rintro home ⟨⟩
    exact .refl
  have hmade := @Discipline.passes_ofModule (since store tracker (some key)).discipline store key
    tracker hclosed hkey (admits_imports.mpr rfl)
  exact ⟨hmade.1.2, rfl, hmade.1.1, hmade.2⟩

/-- The scope of a module that is run on its own begins a realm. -/
theorem houses_ofMain (store : Store) (key : String) :
    ∃ R : Realm, R.Houses (Scope.ofMain store key).2 (Scope.ofMain store key).1 := by
  have htracker : (store.next .imports).index < (store.add .imports .empty).size .imports := by
    rw [Store.size_add]
    exact Nat.lt_succ_self _
  exact ⟨_, (houses_ofModule key htracker).2⟩

end Realm

/-- The programs of some modules, each entered from the one before, are being carried out when a
visit begins: the modules are different, and chains of noted imports lead from all of them to the
module of the realm that the visit belongs to, and so to each module whose code it can come to. -/
structure Within (R : Realm) (home : String) (active : List String) (visit : Visit) : Prop where
  home_eq : R.home? = some home
  closed : R.Closed visit.state.store
  ready : R.discipline.Ready visit.state.store visit.task
  nodup : active.Nodup
  chain {key : String} :
    key ∈ active → ReflTransGen (visit.state.store.get R.tracker).Imports key home

section Within

variable {R : Realm} {home : String} {active : List String}

/-- A module that begins to be run is the only one. -/
theorem Realm.Houses.within {scope : Scope} {state : State} (hhouses : R.Houses state.store scope)
    (statements : List Statement) :
    Within R scope.module [scope.module] ⟨.block scope statements, state⟩ where
  home_eq := hhouses.home_eq
  closed := hhouses.closed
  ready := hhouses.opens
  nodup := by simp
  chain hkey := by
    rw [List.mem_singleton.mp hkey]

/-- A visit that enters no module is within the same modules. -/
theorem Within.leads {host : Host} {steps : Nat} {outer inner : Visit}
    (hwithin : Within R home active outer) (hleads : Leads host steps outer inner) :
    Within R home active inner := by
  have hbegins := hleads.begins hwithin.closed hwithin.ready
  exact ⟨hwithin.home_eq, hbegins.1.1, hbegins.2, hwithin.nodup,
    fun hkey => hbegins.1.2.chain (hwithin.chain hkey)⟩

/-- An import enters a module that is none of those that are being run. For a chain of imports leads
from each of them to the importer, and the import would close a cycle with it. -/
theorem Within.enter {loader : Loader} {scope opened : Scope} {declaration : ImportDeclaration}
    {span : Span} {state start : State} {program : Program}
    (hwithin : Within R home active ⟨.statement scope ⟨.importing declaration, span⟩, state⟩)
    (hopen : openModule loader scope declaration.path state = .value (opened, program) start) :
    loader.Offers opened.module ∧ ∃ R : Realm, Within R opened.module (active ++ [opened.module])
      ⟨.block opened program.statements, start⟩ := by
  obtain ⟨source, graph, hload, hrecord, hmade, _, _⟩ := openModule_eq_value hopen
  have hhome : ∀ mention ∈ scope.home, R.Admits state.store mention :=
    (Discipline.knows_scope.mp hwithin.ready.1).1
  have himporter : R.Admits state.store (.module scope.module) := hhome _ (by simp [Scope.home])
  have htracker : scope.imports = R.tracker :=
    Realm.admits_imports.mp (hhome _ (by simp [Scope.home]))
  rw [htracker] at hrecord hmade
  -- The chains that were noted before lead on to the module that is entered.
  let recorded := state.store.modify R.tracker fun _ => graph
  have htracked : R.tracker.index < recorded.size .imports := by
    rw [Store.size_modify]
    exact hwithin.closed.tracked (by rw [hwithin.home_eq]; rfl)
  have htarget : R.Admits recorded (.module source.key) :=
    Realm.admits_target hwithin.closed himporter hrecord
  have hchain {key : String} (hkey : key ∈ active) :
      ReflTransGen (recorded.get R.tracker).Imports key source.key :=
    ((Realm.keeps_record hrecord).chain (hwithin.chain hkey)).trans
      (htarget home hwithin.home_eq)
  have hnew : source.key ∉ active := by
    intro hkey
    have hcycle := (hwithin.chain hkey).trans (himporter home hwithin.home_eq)
    exact (ImportGraph.record_eq_ok hrecord).1 hcycle
  obtain ⟨hkeeps, hhouses⟩ := Realm.houses_ofModule source.key htracked
  rw [hmade] at hkeeps hhouses
  have hmodule : source.key = opened.module := Option.some.inj hhouses.home_eq
  rw [← hmodule]
  refine ⟨⟨_, _, source, hload, rfl⟩, _, hhouses.home_eq.trans (congrArg some hmodule.symm),
    hhouses.closed, hhouses.opens, ?_, ?_⟩
  · refine List.nodup_append.mpr ⟨hwithin.nodup, by simp, ?_⟩
    rintro key hkey other hother rfl
    exact hnew (List.mem_singleton.mp hother ▸ hkey)
  · intro key hkey
    refine hkeeps.chain ?_
    rcases List.mem_append.mp hkey with hkey | hkey
    · exact hchain hkey
    · rw [List.mem_singleton.mp hkey]

/-- All modules entered on the way to a visit come from the loader, and the visit is within them and
those that were being run before. -/
theorem Within.enters {host : Host} {steps left : Nat} {outer inner : Visit} {keys : List String}
    (hwithin : Within R home active outer) (henters : Enters host steps outer keys left inner) :
    (∀ key ∈ keys, host.loader.Offers key) ∧
      ∃ (R : Realm) (home : String), Within R home (active ++ keys) inner := by
  induction henters generalizing R home active with
  | refl steps visit =>
    rw [List.append_nil]
    exact ⟨by simp, R, home, hwithin⟩
  | @step steps left outer middle inner keys hleads _ ih =>
    cases hentered : outer.entered? middle with
    | none => simpa using ih (hwithin.leads hleads)
    | some key =>
      obtain ⟨scope, declaration, span, state, opened, program, start, rfl, hopen, rfl, rfl⟩ :=
        hleads.exists_opened hentered
      obtain ⟨hoffers, R, hmiddle⟩ := hwithin.enter hopen
      obtain ⟨hkeys, hinner⟩ := ih hmiddle
      rw [List.append_assoc] at hinner
      exact ⟨List.forall_mem_cons.mpr ⟨hoffers, hkeys⟩, hinner⟩

end Within

/-- A session in a new scope of a module, whatever was run before. -/
def Session.inNewScope (host : Host) (module : String) (state : State) : Session :=
  ⟨host, (Scope.ofMain state.store module).1,
    { state with store := (Scope.ofMain state.store module).2 }⟩

/-- A session starts in a new scope. -/
theorem Session.start_eq (settings : Settings) (loader : Loader) (module : String) :
    start settings loader module =
      inNewScope (settings.host loader) module (settings.initialState .empty) :=
  rfl

/-- A program that is run in the scope of a module. -/
structure ModuleRun extends Session where
  program : Program

namespace ModuleRun

/-- How the run ends. -/
def result (run : ModuleRun) : Run State RunError Value :=
  (executeProgram run.host.evaluator run.scope run.program.statements run.state).toRun

/-- When a run makes a visit, the programs of some modules are being carried out: that of its own
module, and from there on those of the modules that were entered on the way. -/
def Carries (run : ModuleRun) (modules : List String) (visit : Visit) : Prop :=
  ∃ steps left first keys,
    Asks (fun e => executeProgram e run.scope run.program.statements) (.ofSteps run.host steps)
      run.state first ∧
    Enters run.host steps first keys left visit ∧ modules = run.scope.module :: keys

/-- At every moment of a run, the modules whose programs are being carried out are different ones,
and so imports are nested at most as deep as the loader has keys. -/
structure NeverReenters (run : ModuleRun) : Prop where
  carries {steps left : Nat} {first visit : Visit} :
    Asks (fun e => executeProgram e run.scope run.program.statements) (.ofSteps run.host steps)
      run.state first →
    Reaches run.host steps first left visit → ∃ modules, run.Carries modules visit
  nodup {modules : List String} {visit : Visit} : run.Carries modules visit → modules.Nodup
  offers {modules : List String} {visit : Visit} {key : String} :
    run.Carries modules visit → key ∈ modules.tail → run.host.loader.Offers key
  depth_le {modules known : List String} {visit : Visit} :
    run.Carries modules visit → (∀ key, run.host.loader.Offers key → key ∈ known) →
      modules.length ≤ known.length + 1

/-- A module that has a realm of its own is never entered again while it is run, and neither is any
other module. -/
theorem neverReenters {run : ModuleRun} {R : Realm} (hhouses : R.Houses run.state.store run.scope) :
    run.NeverReenters := by
  have hcarried {modules : List String} {visit : Visit} (hcarries : run.Carries modules visit) :
      modules.Nodup ∧ ∀ key ∈ modules.tail, run.host.loader.Offers key := by
    obtain ⟨steps, left, first, keys, hasks, henters, rfl⟩ := hcarries
    rw [asks_executeProgram_iff.mp hasks] at henters
    obtain ⟨hkeys, R, home, hwithin⟩ := (hhouses.within _).enters henters
    exact ⟨hwithin.nodup, hkeys⟩
  refine ⟨fun hasks hreaches => ?_, fun hcarries => (hcarried hcarries).1,
    fun hcarries => (hcarried hcarries).2 _, fun {modules known _} hcarries hknown => ?_⟩
  · obtain ⟨keys, henters⟩ := hreaches.enters
    exact ⟨_, _, _, _, keys, hasks, henters, rfl⟩
  · obtain ⟨hnodup, hoffers⟩ := hcarried hcarries
    have hsubset : modules.tail ⊆ known := fun key hkey => hknown key (hoffers key hkey)
    have hnested : modules.tail.Nodup := hnodup.sublist (List.tail_sublist modules)
    have hlength := (List.subperm_of_subset hnested hsubset).length_le
    rw [List.length_tail] at hlength
    omega

/-- Where a program begins with an import, the program of the imported module is carried out. -/
theorem carries_imported {run : ModuleRun} {declaration : ImportDeclaration} {span : Span}
    {others : List Statement} {opened : Scope} {program : Program} {start : State}
    (hstatements : run.program.statements = ⟨.importing declaration, span⟩ :: others)
    (hmodule : (run.host.libraries.find? fun library => library.name = declaration.path) = none)
    (hopen : openModule run.host.loader run.scope declaration.path run.state =
      .value (opened, program) start) :
    run.Carries [run.scope.module, opened.module] ⟨.block opened program.statements, start⟩ := by
  let statement : Statement := ⟨.importing declaration, span⟩
  have hblock : Leads run.host 1 ⟨.block run.scope run.program.statements, run.state⟩
      ⟨.statement run.scope statement, run.state⟩ := by
    rw [hstatements]
    have hperform := asks_or_ignores_perform (.statement run.scope statement)
      (.ofSteps run.host 1) run.state ⟨.statement run.scope statement, run.state⟩
    exact (asks_bind_iff hperform).mpr (.inl (asks_perform_iff.mpr rfl))
  have himport : Leads run.host 0 ⟨.statement run.scope statement, run.state⟩
      ⟨.block opened program.statements, start⟩ :=
    leads_import_iff.mpr ⟨hmodule, opened, program, start, hopen, rfl⟩
  exact ⟨2, 0, _, _, asks_executeProgram_iff.mpr rfl, .step hblock (.step himport (.refl 0 _)), rfl⟩

end ModuleRun

/-- The state that a run leaves is that of its computation. -/
theorem Result.after?_of_toRun {result : Result Value} {outcome : Except RunError Value}
    {after : State} (hrun : result.toRun = .ok (outcome, after)) : result.after? = some after := by
  cases result with
  | value given final =>
    cases hrun
    rfl
  | interrupted interrupt final =>
    cases hrun
    rfl
  | halted reason => cases hrun

/-- What an evaluation in the scope of a module leaves is what the module is allowed to do. -/
theorem Realm.Houses.evaluateIn {R : Realm} {scope : Scope} {state after : State} {host : Host}
    {source : String} {outcome : Except RunError Value} (hhouses : R.Houses state.store scope)
    (hrun : Kestrel.evaluateIn host source scope state = .ok (outcome, after)) :
    R.Houses after.store scope := by
  unfold Kestrel.evaluateIn at hrun
  cases hparse : parseProgram source (some scope.module) with
  | error error =>
    rw [hparse] at hrun
    cases hrun
    exact hhouses
  | ok program =>
    rw [hparse] at hrun
    have htrusts := R.discipline.trusts_ofSteps host stepLimit
    have hobeys := Discipline.Respects.executeProgram htrusts hhouses.opens program.statements
    exact hhouses.later ((hobeys.obeys hhouses.closed).passes (Result.after?_of_toRun hrun))

namespace Session

/-- What can become of a session: its source texts are run, its names are forgotten, and everything
but its scope and its cells is replaced. -/
inductive Continues : Session → Session → Prop
  | run {session next : Session} {source : String} {outcome : Except RunError Value}
    (hrun : session.run source = .ok (outcome, next)) : Continues session next
  | clear (session : Session) : Continues session session.clear
  | replace {session next : Session} (hscope : next.scope = session.scope)
    (hstore : next.state.store = session.state.store) : Continues session next

/-- A session stays in its scope, and the scope in its realm. -/
theorem Continues.houses {session next : Session} {R : Realm} (hcontinues : session.Continues next)
    (hhouses : R.Houses session.state.store session.scope) :
    next.scope = session.scope ∧ R.Houses next.state.store next.scope := by
  cases hcontinues with
  | @run _ source outcome hrun =>
    unfold Session.run Run.mapEnd at hrun
    split at hrun
    · next outcome state hend =>
      cases hrun
      exact ⟨rfl, hhouses.evaluateIn hend⟩
    · cases hrun
  | clear =>
    have hhere : R.Admits session.state.store (.cell session.scope.here) :=
      (Discipline.knows_scope.mp hhouses.opens.1).2.1
    have hkind : CellKind.scope ≠ .imports := by simp
    refine ⟨rfl, hhouses.later ⟨hhouses.closed.modify hkind hhere ?_, ?_⟩⟩
    · rintro mention ⟨⟩
    · exact Realm.keeps_modify hkind ((Realm.admits_cell hkind).mp hhere).1
  | replace hscope hstore =>
    rw [hscope, hstore]
    exact ⟨rfl, hhouses⟩

/-- Whatever becomes of a session, its module stays the same and goes on to have a realm. -/
theorem houses_of_continues {host : Host} {module : String} {state : State} {session : Session}
    (hcontinues : ReflTransGen Continues (inNewScope host module state) session) :
    session.scope.module = module ∧ ∃ R : Realm, R.Houses session.state.store session.scope := by
  obtain ⟨R, hhouses⟩ := Realm.houses_ofMain state.store module
  induction hcontinues with
  | refl => exact ⟨rfl, R, hhouses⟩
  | tail _ hnext ih =>
    obtain ⟨hmodule, R, hhouses⟩ := ih
    obtain ⟨hscope, hhouses⟩ := hnext.houses hhouses
    rw [hscope] at hhouses ⊢
    exact ⟨hmodule, R, hhouses⟩

end Session

/-- No module is entered again while a program is run in a session. -/
theorem ModuleRun.neverReenters_of_continues {host : Host} {module : String} {state : State}
    {session : Session}
    (hcontinues : ReflTransGen Session.Continues (.inNewScope host module state) session)
    (program : Program) : (⟨session, program⟩ : ModuleRun).NeverReenters := by
  obtain ⟨_, R, hhouses⟩ := Session.houses_of_continues hcontinues
  exact neverReenters hhouses

/-- A source text that can be parsed is run in a new scope. -/
theorem runSource_eq_result {host : Host} {source name : String} {program : Program}
    (hparse : parseProgram source (some (host.loader.entryKey name)) = .ok program)
    (state : State) : runSource host source name state =
      (⟨.inNewScope host (host.loader.entryKey name) state, program⟩ : ModuleRun).result := by
  unfold runSource
  simp only [hparse]
  rfl

/-- A file that can be read is run as the source text in it. -/
theorem runFile_eq_runSource {settings : Settings} {files : Files} {path source : String}
    (hread : readFile files path = .content source) (state : State) :
    runFile settings files path state =
      runSource (settings.host (.fromFiles files)) source (Path.moduleKey path) state := by
  unfold runFile
  simp only [hread]

/-- However a program comes to be run, as a source text, as a file or as one of the evaluations of a
session, no module is entered while its program is being carried out. -/
theorem modules_never_reentered :
    (∀ (host : Host) (source name : String) (state : State) (program : Program),
      let key := host.loader.entryKey name
      let run : ModuleRun := ⟨.inNewScope host key state, program⟩
      parseProgram source (some key) = .ok program →
        runSource host source name state = run.result ∧ run.NeverReenters) ∧
    (∀ (settings : Settings) (files : Files) (path source : String) (state : State)
        (program : Program),
      let host := settings.host (.fromFiles files)
      let key := host.loader.entryKey (Path.moduleKey path)
      let run : ModuleRun := ⟨.inNewScope host key state, program⟩
      readFile files path = .content source → parseProgram source (some key) = .ok program →
        runFile settings files path state = run.result ∧ run.NeverReenters) ∧
    ∀ (host : Host) (module source : String) (state : State) (session : Session)
        (program : Program),
      let run : ModuleRun := ⟨session, program⟩
      ReflTransGen Session.Continues (.inNewScope host module state) session →
      parseProgram source (some module) = .ok program →
        session.scope.module = module ∧
        session.run source =
          run.result.mapEnd (fun outcome state => (outcome, { session with state })) ∧
        run.NeverReenters := by
  refine ⟨?_, ?_, ?_⟩
  · intro host source name state program key run hparse
    exact ⟨runSource_eq_result hparse state, ModuleRun.neverReenters_of_continues .refl program⟩
  · intro settings files path source state program host key run hread hparse
    have hrun : runFile settings files path state = run.result :=
      (runFile_eq_runSource hread state).trans (runSource_eq_result hparse state)
    exact ⟨hrun, ModuleRun.neverReenters_of_continues .refl program⟩
  · intro host module source state session program run hcontinues hparse
    have hmodule := (Session.houses_of_continues hcontinues).1
    have hrun : session.run source =
        run.result.mapEnd fun outcome state => (outcome, { session with state }) := by
      unfold Session.run evaluateIn
      simp only [hmodule, hparse]
      rfl
    exact ⟨hmodule, hrun, ModuleRun.neverReenters_of_continues hcontinues program⟩

/-- Whether a text is a program that first of all imports a path. -/
def importsFirst (path : String) : Except SyntaxError Program → Bool
  | .ok ⟨⟨.importing declaration, _⟩ :: _, _, _⟩ => declaration.path = path
  | _ => false

/-- A program that first of all imports a path starts with this import. -/
theorem exists_of_importsFirst {path : String} {parsed : Except SyntaxError Program}
    (himports : importsFirst path parsed) :
    ∃ program, parsed = .ok program ∧ ∃ declaration span others,
      program.statements = ⟨.importing declaration, span⟩ :: others ∧ declaration.path = path := by
  unfold importsFirst at himports
  split at himports
  · next declaration span others _ _ =>
    exact ⟨_, rfl, declaration, span, others, rfl, of_decide_eq_true himports⟩
  · contradiction

/-- Whether a module is opened under a key. -/
def opensAs (key : String) : Result (Scope × Program) → Bool
  | .value (opened, _) _ => opened.module = key
  | _ => false

/-- A module that is opened under a key gets a scope that is named so. -/
theorem exists_of_opensAs {key : String} {result : Result (Scope × Program)}
    (hopens : opensAs key result) :
    ∃ opened inner start, result = .value (opened, inner) start ∧ opened.module = key := by
  unfold opensAs at hopens
  split at hopens
  · next opened inner start => exact ⟨opened, inner, start, rfl, of_decide_eq_true hopens⟩
  · contradiction

/-- A program that imports a module is run as a source text, as a file, and in a session in which it
was run before. -/
theorem modules_never_reentered_imported :
    let source := "import \"a\""
    let loader := Loader.fromMemory [("a.kes", "var list = []")]
    let host := Settings.default.host loader
    let files : Files := fun path => if path = "main.kes" then .text source else .missing
    let state := Settings.default.initialState .empty
    ∃ program, parseProgram source (some "main.kes") = .ok program ∧
      (let run : ModuleRun := ⟨.inNewScope host "main.kes" state, program⟩
       runSource host source "main" state = run.result ∧ run.NeverReenters ∧
         ∃ visit, run.Carries ["main.kes", "a.kes"] visit) ∧
      (let fileHost := Settings.default.host (.fromFiles files)
       let run : ModuleRun := ⟨.inNewScope fileHost "main.kes" state, program⟩
       runFile .default files "main.kes" state = run.result ∧ run.NeverReenters) ∧
      ∃ outcome session,
        (Session.start .default loader "main.kes").run source = .ok (outcome, session) ∧
        (⟨session, program⟩ : ModuleRun).NeverReenters := by
  intro source loader host files state
  obtain ⟨program, hparse, declaration, span, others, hstatements, hpath⟩ :
      ∃ program, parseProgram source (some "main.kes") = .ok program ∧
        ∃ declaration span others, program.statements = ⟨.importing declaration, span⟩ :: others ∧
          declaration.path = "a" :=
    exists_of_importsFirst (by decide +kernel)
  obtain ⟨opened, inner, start, hopen, hkey⟩ : ∃ opened inner start,
      openModule loader (Scope.ofMain state.store "main.kes").1 "a"
          { state with store := (Scope.ofMain state.store "main.kes").2 } =
        .value (opened, inner) start ∧ opened.module = "a.kes" :=
    exists_of_opensAs (by decide +kernel)
  have hsource : host.loader.entryKey "main" = "main.kes" := by decide +kernel
  have hfile : (Settings.default.host (.fromFiles files)).loader.entryKey
      (Path.moduleKey "main.kes") = "main.kes" := by decide +kernel
  refine ⟨program, hparse, ?_, ?_, ?_⟩
  · have hrun := modules_never_reentered.1 host source "main" state program
    simp only [hsource] at hrun
    obtain ⟨heq, hnever⟩ := hrun hparse
    have hlibrary : (host.libraries.find? fun library => library.name = "a") = none := by decide
    rw [← hpath] at hopen hlibrary
    rw [← hkey]
    exact ⟨heq, hnever, _, ModuleRun.carries_imported hstatements hlibrary hopen⟩
  · have hrun := modules_never_reentered.2.1 .default files "main.kes" source state program
    simp only [hfile] at hrun
    exact hrun rfl hparse
  · obtain ⟨outcome, session, hrun⟩ : ∃ outcome session,
        (Session.start .default loader "main.kes").run source = .ok (outcome, session) := by
      have hcheck : ((Session.start .default loader "main.kes").run source).isOk = true := by
        decide +kernel
      cases hend : (Session.start .default loader "main.kes").run source with
      | ok done => exact ⟨done.1, done.2, rfl⟩
      | error reason =>
        rw [hend] at hcheck
        cases hcheck
    rw [Session.start_eq] at hrun
    have hcontinues := Relation.ReflTransGen.single (Session.Continues.run hrun)
    obtain ⟨_, _, hnever⟩ :=
      modules_never_reentered.2.2 host "main.kes" source state session program hcontinues hparse
    exact ⟨outcome, session, hrun, hnever⟩

end Kestrel
