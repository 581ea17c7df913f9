import Kestrel.Proofs.Eval.Code
import Kestrel.Proofs.Module.Nesting
import Kestrel.Proofs.Syntax.Operand

/-!
# Running accepted sources

Everything that is relied on when a tree is run holds of every tree that the parser returns. Some of
it is checked while the tree is made, and some is what the grammar cannot read otherwise. So the one
failure that is about the text of a program never comes up when an accepted source is run: nothing
is assigned to that cannot be assigned to.
-/

namespace Kestrel

open SyntaxNode (AllRun allRun_singleton)

section Runs

variable {host : Host}

/-- Every task whose code can be run is tame, apart from what a statement does at its end. -/
theorem Task.tame_unsettled (hlibraries : host.FailsOrdinarily) {task : Task}
    (hcode : AllRun task.code) : Construct.Tame task.layer (task.unsettled host) := by
  cases task with
  | expression scope part => exact .evaluateExpression host scope (allRun_singleton.mp hcode)
  | statement scope part => exact .executeForm hlibraries scope (allRun_singleton.mp hcode).inside
  | block scope parts => exact .executeRow scope .nothing hcode

/-- Every visit of code that can be run ends tamely. -/
theorem Evaluator.tame_ofSteps (hlibraries : host.FailsOrdinarily) (steps : Nat) :
    (ofSteps host steps).Tame := by
  induction steps with
  | zero =>
    intro visit _
    rw [outcome_ofSteps_zero]
    trivial
  | succ steps ih =>
    rintro ⟨task, state⟩ ⟨hcode, hfunctions⟩
    rw [outcome_ofSteps_succ]
    have hend := (Task.tame_unsettled hlibraries hcode).ends ih hfunctions
    cases task with
    | expression scope part => exact hend
    | statement scope part =>
      change (executeStatement host (ofSteps host steps) scope part state).Tame
      rw [executeStatement_apply]
      exact hend.settled scope part.line
    | block scope parts => exact hend

/-- What is reached from code that can be run is code that can be run. -/
theorem Reaches.ready (hlibraries : host.FailsOrdinarily) {steps left : Nat} {outer inner : Visit}
    (hreaches : Reaches host steps outer left inner) (hready : outer.Ready) : inner.Ready := by
  induction hreaches with
  | refl steps visit => exact hready
  | @step steps left outer middle inner hleads _ ih =>
    have htame := Task.tame_unsettled hlibraries hready.code
    exact ih (htame.ready_of_asks (Evaluator.tame_ofSteps hlibraries steps) hready.functions
      (Task.asks_construct_iff.mp hleads))

/-- A program that can be run ends tamely. -/
theorem tame_executeProgram (hlibraries : host.FailsOrdinarily) (steps : Nat) (scope : Scope)
    {program : Program} {state : State} (hcode : (SyntaxNode.program program).Runs)
    (hfunctions : state.store.FunctionsRun) :
    (executeProgram (.ofSteps host steps) scope program.statements state).Tame := by
  have hprogram : Construct.Tame .form fun evaluator =>
      executeProgram evaluator scope program.statements :=
    .bind (.block scope hcode.inside) fun signal => .plain (.programValue signal)
  exact hprogram.ends (Evaluator.tame_ofSteps hlibraries steps) hfunctions

end Runs

/-- The states that accepted sources come to: from a state without cells on, programs that were
parsed are run, and anything but the functions may be changed in between. -/
inductive State.Arises : State → Prop
  | initial (settings : Settings) (output : Output) : Arises (settings.initialState output)
  | ran {state after : State} (harises : Arises state) {host : Host}
    (hlibraries : host.FailsOrdinarily) {source : String} {sourceFile : Option String}
    {program : Program} (haccepted : parseProgram source sourceFile = .ok program) {steps : Nat}
    {scope : Scope} (hafter : (executeProgram (.ofSteps host steps) scope program.statements
      state).after? = some after) : Arises after
  | same {state after : State} (harises : Arises state)
    (hsame : after.store.functions = state.store.functions) : Arises after

namespace State.Arises

variable {host : Host} {state after : State} {outcome : Except RunError Value}

/-- Where accepted sources come to, every function can be run. -/
theorem functionsRun (harises : state.Arises) : state.store.FunctionsRun := by
  induction harises with
  | initial settings output =>
    intro closure hclosure
    cases Array.not_mem_empty closure hclosure
  | ran _ hlibraries haccepted hafter ih =>
    have hcode := runs_parseProgram _ _ _ haccepted
    exact (tame_executeProgram hlibraries _ _ hcode ih).functionsRun hafter
  | same _ hsame ih => exact ih.of_eq hsame

/-- The end of a program that was accepted. -/
theorem executeProgram {source : String} {sourceFile : Option String} {program : Program}
    {scope : Scope} (harises : state.Arises) (hlibraries : host.FailsOrdinarily)
    (haccepted : parseProgram source sourceFile = .ok program)
    (hrun : (Kestrel.executeProgram host.evaluator scope program.statements state).toRun =
      .ok (outcome, after)) :
    after.Arises ∧ ∀ error, outcome = .error (.failed error) → error.cause.Ordinary := by
  have hcode := runs_parseProgram _ _ _ haccepted
  have hend := tame_executeProgram hlibraries stepLimit scope hcode harises.functionsRun
  refine ⟨.ran harises hlibraries haccepted (Result.after?_of_toRun hrun), ?_⟩
  rintro error rfl
  change Result.toRun (Kestrel.executeProgram (.ofSteps host stepLimit) scope program.statements
    state) = _ at hrun
  cases h : Kestrel.executeProgram (.ofSteps host stepLimit) scope program.statements state with
  | value value final =>
    rw [h] at hrun
    cases hrun
  | interrupted interrupt final =>
    rw [h] at hrun hend
    cases hrun
    exact hend.2
  | halted reason =>
    rw [h] at hrun
    cases hrun

/-- The end of a source text that is run in a scope. -/
theorem evaluateIn {source : String} {scope : Scope} (harises : state.Arises)
    (hlibraries : host.FailsOrdinarily)
    (hrun : Kestrel.evaluateIn host source scope state = .ok (outcome, after)) :
    after.Arises ∧ ∀ error, outcome = .error (.failed error) → error.cause.Ordinary := by
  unfold Kestrel.evaluateIn at hrun
  cases hparse : parseProgram source (some scope.module) with
  | error error =>
    rw [hparse] at hrun
    cases hrun
    exact ⟨harises, by simp⟩
  | ok program =>
    rw [hparse] at hrun
    exact harises.executeProgram hlibraries hparse hrun

/-- The end of a source text that is run as a module. -/
theorem runSource {source module : String} (harises : state.Arises)
    (hlibraries : host.FailsOrdinarily)
    (hrun : Kestrel.runSource host source module state = .ok (outcome, after)) :
    after.Arises ∧ ∀ error, outcome = .error (.failed error) → error.cause.Ordinary := by
  unfold Kestrel.runSource at hrun
  cases hparse : parseProgram source (some (host.loader.entryKey module)) with
  | error error =>
    simp only [hparse] at hrun
    cases hrun
    exact ⟨harises, by simp⟩
  | ok program =>
    simp only [hparse] at hrun
    have hopened : State.Arises { state with
        store := (Scope.ofMain state.store (host.loader.entryKey module)).2 } :=
      .same harises (Scope.functions_ofMain _ _)
    exact hopened.executeProgram hlibraries hparse hrun

end State.Arises

/-- Native libraries of a host whose modules come from a loader. -/
theorem Settings.failsOrdinarily_host (settings : Settings) (loader : Loader) :
    (settings.host loader).FailsOrdinarily := by
  intro library hlibrary name
  cases List.mem_singleton.mp hlibrary
  exact fails_ok

/-- A word that is parsed as an identifier is a name. -/
theorem isName_of_parseExpression {source word : String} {span : Span}
    (haccepted : parseExpression source = .ok ⟨.identifier word, span⟩) : IsName word :=
  (allRun_singleton.mp (runs_parseExpression source _ haccepted).inside).runnable

/-- Where an identifier can be read, a name comes next, and the other way round. -/
theorem isName_iff_reads (cursor : Cursor) :
    IsName cursor.name ↔ ∃ found, Reads .spaced (.rule .identifier) cursor (some found) := by
  constructor
  · exact fun hname => ⟨_, Reads.reads_identifier hname⟩
  · rintro ⟨found, hreads⟩
    exact hreads.identifier_inv.1

/-- Every accepted source can be run. In the tree of a program or of an expression, whatever is
assigned to can be assigned to, an `if` has a branch, a struct literal has a field and a path of
names in front of it, identifiers are names, and numbers are not negative. Names are exactly the
words made of letters, digits and underscores, with no digit in front, that are none of 23 reserved
ones: each of them is an identifier wherever it stands, and nothing else is. And from every state
that accepted sources come to, an accepted program is never interrupted because something cannot be
assigned to, nor is anything that its evaluation consists of. -/
theorem accepted_sources_run :
    (∀ source sourceFile program, parseProgram source sourceFile = .ok program →
      ∀ node, (SyntaxNode.program program).Contains node → node.Runnable) ∧
    (∀ source value, parseExpression source = .ok value →
      ∀ node, (SyntaxNode.expression value).Contains node → node.Runnable) ∧
    (reservedWords.length = 23 ∧
      (∀ word, IsName word ↔ parseExpression word = .ok ⟨.identifier word, .whole word⟩) ∧
      ∀ cursor : Cursor, IsName cursor.name ↔
        ∃ found, Reads .spaced (.rule .identifier) cursor (some found)) ∧
    ∀ host : Host, host.FailsOrdinarily → ∀ state : State, state.Arises →
      (∀ source sourceFile program, parseProgram source sourceFile = .ok program →
        ∀ scope steps left visit,
          Reaches host steps ⟨.block scope program.statements, state⟩ left visit →
            ∀ interrupt, (Evaluator.ofSteps host left).Interrupted visit interrupt →
              interrupt.asError.cause.Ordinary) ∧
      (∀ source scope outcome after, evaluateIn host source scope state = .ok (outcome, after) →
        after.Arises ∧ ∀ error, outcome = .error (.failed error) → error.cause.Ordinary) ∧
      ∀ source module outcome after, runSource host source module state = .ok (outcome, after) →
        after.Arises ∧ ∀ error, outcome = .error (.failed error) → error.cause.Ordinary := by
  refine ⟨?_, ?_, ⟨rfl, fun word => ⟨parseExpression_of_name, isName_of_parseExpression⟩,
    isName_iff_reads⟩, fun host hlibraries state harises => ⟨?_, ?_, ?_⟩⟩
  · exact fun source sourceFile program haccepted => runs_parseProgram source sourceFile _ haccepted
  · exact fun source value haccepted => runs_parseExpression source _ haccepted
  · intro source sourceFile program haccepted scope steps left visit hreaches interrupt hinterrupted
    obtain ⟨after, hend⟩ := hinterrupted
    have hcode := runs_parseProgram source sourceFile _ haccepted
    have hready : Visit.Ready ⟨.block scope program.statements, state⟩ :=
      ⟨hcode.inside, harises.functionsRun⟩
    have htame := Evaluator.tame_ofSteps hlibraries left _ (hreaches.ready hlibraries hready)
    rw [hend] at htame
    exact htame.2
  · exact fun source scope outcome after hrun => harises.evaluateIn hlibraries hrun
  · exact fun source module outcome after hrun => harises.runSource hlibraries hrun

/-- What a run failed for, if a statement of the program failed. -/
def Run.cause? : Run State RunError Value → Option Cause
  | .ok (.error (.failed error), _) => some error.cause
  | _ => none

/-- A run that tells a cause ended with an error of this cause. -/
theorem Run.exists_of_cause? {run : Run State RunError Value} {cause : Cause}
    (hfails : run.cause? = some cause) :
    ∃ error after, run = .ok (.error (.failed error), after) ∧ error.cause = cause := by
  unfold Run.cause? at hfails
  split at hfails
  · next error after => exact ⟨error, after, rfl, Option.some.inj hfails⟩
  · cases hfails

/-- A method that is called assigns to a field, and then a name is assigned to that was not
declared. The source is accepted and fails, but not because something cannot be assigned to. -/
theorem accepted_sources_run_of_undeclared :
    let source := "struct P { x } P -> fn set(v) { this.x = v } P{x: true}.set(1) missing = true"
    let host := Settings.default.host (.fromMemory [])
    let state := Settings.default.initialState .empty
    IsName "missing" ∧ parseExpression "missing" = .ok ⟨.identifier "missing", .whole "missing"⟩ ∧
    (∃ program, parseProgram source none = .ok program ∧
      (SyntaxNode.program program).Runnable) ∧
    ∃ error after, runSource host source "main" state = .ok (.error (.failed error), after) ∧
      error.cause = .assignedBeforeDeclared "missing" ∧ state.Arises ∧ after.Arises ∧
      error.cause.Ordinary := by
  intro source host state
  obtain ⟨hnodes, _, ⟨_, hwords, _⟩, hruns⟩ := accepted_sources_run
  have hname : IsName "missing" := by decide
  obtain ⟨program, hprogram⟩ : ∃ program, parseProgram source none = .ok program :=
    exists_of_isOk (by decide +kernel)
  have hfails : (runSource host source "main" state).cause? =
      some (.assignedBeforeDeclared "missing") := by decide +kernel
  obtain ⟨error, after, hrun, hcause⟩ := Run.exists_of_cause? hfails
  have hstate : state.Arises := .initial .default .empty
  have hlibraries : host.FailsOrdinarily := Settings.failsOrdinarily_host _ _
  obtain ⟨hafter, hordinary⟩ :=
    (hruns host hlibraries state hstate).2.2 source "main" _ after hrun
  have hnode := hnodes source none program hprogram _ .refl
  exact ⟨hname, (hwords _).mp hname, ⟨program, hprogram, hnode⟩, error, after, hrun, hcause, hstate,
    hafter, hordinary error rfl⟩

end Kestrel
