import Kestrel.Proofs.Discipline.Realm
import Kestrel.Proofs.Eval.CallBalance

/-!
# What an import leaves alone

An import makes all the cells that its module works with. The cells that were there before stay as
they are, however the import ends; if it succeeds, one name is bound in the scope of the import, to
a namespace from which only new cells can be reached. So a module that is imported twice is there
twice, and shares nothing with the program that imports it.
-/

namespace Kestrel

/-- What is reached when the cells on the way are as they were was reached before, too. -/
theorem Store.Reaches.of_get_eq {before after : Store} {outer inner : Mention}
    (hsame : ∀ {kind : CellKind} (ref : Ref kind), kind ≠ .imports →
      before.Reaches outer (.cell ref) → after.get ref = before.get ref)
    (hreaches : after.Reaches outer inner) : before.Reaches outer inner := by
  induction hreaches with
  | refl => exact .refl
  | @tail middle inner _ hrefers ih =>
    cases middle with
    | module key => exact hrefers.elim
    | @cell kind ref =>
      have hkind : kind ≠ .imports := by
        rintro rfl
        cases hrefers
      have hmention : inner ∈ kind.mentions (before.get ref) := by
        rw [← hsame ref hkind ih]
        exact hrefers
      exact ih.tail hmention

/-- A namespace that was imported: a name is bound to it and what was there before is otherwise as
it was, but for noted imports; from the namespace only new cells can be reached; and what did not
reach the scope of the import before shares nothing with the namespace. -/
structure Imported (before after : Store) (scope : Scope) (name : String)
    (offered : Ref .exports) : Prop where
  kept {kind : CellKind} (ref : Ref kind) :
    ref.index < before.size kind → (kind = .imports → ref.index ≠ scope.imports.index) →
      after.get ref = (scope.bind before name (.exports offered)).get ref
  fresh {kind : CellKind} (ref : Ref kind) :
    kind ≠ .imports → after.Reaches (.cell offered) (.cell ref) →
      before.size kind ≤ ref.index ∧ ref.index < after.size kind
  apart (other : Mention) :
    (∀ {kind : CellKind} (ref : Ref kind), kind ≠ .imports → before.Reaches other (.cell ref) →
      ref.index < before.size kind) →
    ¬ before.Reaches other (.cell scope.here) →
      ∀ {kind : CellKind} (ref : Ref kind), kind ≠ .imports → after.Reaches other (.cell ref) →
        ¬ after.Reaches (.cell offered) (.cell ref)

section Bind

variable {before middle : Store} {scope : Scope} {name : String} {kind : CellKind}

/-- A binding changes a cell in the same way in two stores in which the cell is the same. -/
theorem get_bind_eq {value : Value} {ref : Ref kind} (hbefore : ref.index < before.size kind)
    (hmiddle : ref.index < middle.size kind) (hsame : middle.get ref = before.get ref) :
    (scope.bind middle name value).get ref = (scope.bind before name value).get ref := by
  unfold Scope.bind Scope.rebind
  by_cases hhere : kind = .scope ∧ ref.index = scope.here.index
  · obtain ⟨rfl, hindex⟩ := hhere
    cases Ref.eq_of_index_eq hindex
    rw [Store.get_modify_self hbefore, Store.get_modify_self hmiddle, hsame]
  · have hne : kind = .scope → ref.index ≠ scope.here.index := fun hkind hindex =>
      hhere ⟨hkind, hindex⟩
    rw [Store.get_modify_of_ne hne, Store.get_modify_of_ne hne, hsame]

/-- A binding changes no cell but that of the scope. -/
theorem get_bind_of_ne {value : Value} {ref : Ref kind}
    (hne : (Mention.cell ref) ≠ .cell scope.here) :
    (scope.bind before name value).get ref = before.get ref := by
  unfold Scope.bind Scope.rebind
  refine Store.get_modify_of_ne (fun hkind hindex => ?_) _
  subst hkind
  exact hne (congrArg Mention.cell (Ref.eq_of_index_eq hindex))

/-- After a binding, a cell mentions what is bound or what it mentioned before. -/
theorem mem_mentions_bind {value : Value} {ref : Ref kind} {mention : Mention}
    (hmention : mention ∈ kind.mentions ((scope.bind before name value).get ref)) :
    mention ∈ value.mentions ∨ mention ∈ kind.mentions (before.get ref) := by
  by_cases hhere : kind = .scope ∧ ref.index = scope.here.index
  · obtain ⟨rfl, hindex⟩ := hhere
    cases Ref.eq_of_index_eq hindex
    unfold Scope.bind Scope.rebind at hmention
    rcases Nat.lt_or_ge scope.here.index (before.size .scope) with hlt | hge
    · rw [Store.get_modify_self hlt] at hmention
      exact mem_mentions_insert hmention
    · rw [Store.get_modify_of_size_le hge] at hmention
      exact .inr hmention
  · rw [get_bind_of_ne fun heq => hhere ?_] at hmention
    · exact .inr hmention
    · cases heq
      exact ⟨rfl, rfl⟩

end Bind

/-- A namespace that the program of the module made for itself, bound to a name in a scope that was
there before. -/
theorem imported_of_realm {before middle : Store} {scope : Scope} {offered : Ref .exports}
    (name : String) (hclosed : (Realm.since before scope.imports none).Closed middle)
    (hkeeps : (Realm.since before scope.imports none).Keeps before middle)
    (hoffered : (Realm.since before scope.imports none).Admits middle (.cell offered)) :
    Imported before (scope.bind middle name (.exports offered)) scope name offered := by
  let R := Realm.since before scope.imports none
  let after := scope.bind middle name (.exports offered)
  have hkept {kind : CellKind} (ref : Ref kind) (hlt : ref.index < before.size kind)
      (htracker : kind = .imports → ref.index ≠ scope.imports.index) :
      after.get ref = (scope.bind before name (.exports offered)).get ref :=
    get_bind_eq hlt (Nat.lt_of_lt_of_le hlt (hkeeps.size_le kind)) (hkeeps.get_eq hlt htracker)
  have hreached {mention : Mention} (hreaches : after.Reaches (.cell offered) mention) :
      R.Admits middle mention := by
    induction hreaches with
    | refl => exact hoffered
    | @tail inner mention _ hrefers ih =>
      cases inner with
      | module key => exact hrefers.elim
      | cell ref =>
        rcases mem_mentions_bind hrefers with hmention | hmention
        · rw [List.mem_singleton.mp hmention]
          exact hoffered
        · exact hclosed.admits_held ih hmention
  have hfresh {kind : CellKind} (ref : Ref kind) (hkind : kind ≠ .imports)
      (hreaches : after.Reaches (.cell offered) (.cell ref)) :
      before.size kind ≤ ref.index ∧ ref.index < after.size kind := by
    have hsize : after.size kind = middle.size kind := Store.size_modify _ _ _ _
    rw [hsize]
    exact (Realm.admits_cell hkind).mp (hreached hreaches)
  refine ⟨hkept, hfresh, fun other hexists hunreached kind ref hkind hreaches hshared => ?_⟩
  have hsame {kind : CellKind} (ref : Ref kind) (hkind : kind ≠ .imports)
      (hreaches : before.Reaches other (.cell ref)) : after.get ref = before.get ref := by
    have hne : Mention.cell ref ≠ .cell scope.here := fun heq => hunreached (heq ▸ hreaches)
    exact (hkept ref (hexists ref hkind hreaches) fun heq => absurd heq hkind).trans
      (get_bind_of_ne hne)
  have hlt := hexists ref hkind (hreaches.of_get_eq hsame)
  have hge := (hfresh ref hkind hshared).1
  omega

/-- Two imports in a row, from scopes that were there before both, share nothing. -/
theorem Imported.disjoint {before middle after : Store} {firstScope secondScope : Scope}
    {firstName secondName : String} {first second : Ref .exports}
    (hfirst : Imported before middle firstScope firstName first)
    (hsecond : Imported middle after secondScope secondName second)
    (hscope : secondScope.here.index < before.size .scope) {kind : CellKind} (ref : Ref kind)
    (hkind : kind ≠ .imports) (hreaches : after.Reaches (.cell first) (.cell ref)) :
    ¬ after.Reaches (.cell second) (.cell ref) := by
  refine hsecond.apart (.cell first) (fun ref hkind hreaches => ?_) (fun hreaches => ?_) ref hkind
    hreaches
  · exact (hfirst.fresh ref hkind hreaches).2
  · have hge := (hfirst.fresh secondScope.here (by simp) hreaches).1
    omega

/-- Every cell is as it was, but for noted imports. -/
def Untouched (tracker : Ref .imports) (before after : Store) : Prop :=
  ∀ {kind : CellKind} (ref : Ref kind), ref.index < before.size kind →
    (kind = .imports → ref.index ≠ tracker.index) → after.get ref = before.get ref

section Import

variable {host : Host} {steps : Nat} {scope : Scope} {declaration : ImportDeclaration}
  {state after : State}

/-- Until a name is bound to what a module offers, its import works with new cells alone. -/
theorem obeys_realm_until_bound (host : Host) (steps : Nat) (scope : Scope) (path name : String)
    (state : State) :
    let R := Realm.since state.store scope.imports none
    R.discipline.Obeys state (do
      let opened ← openModule host.loader scope path
      offerModule (.ofSteps host steps) name opened) R.discipline.Knows := by
  intro R
  have htrusts := R.discipline.trusts_ofSteps host steps
  have hhome : ∀ mention ∈ scope.home, R.discipline.admits state.store mention := by
    intro mention hmention
    rcases List.mem_cons.mp hmention with rfl | hmention
    · rintro home ⟨⟩
    · rw [List.mem_singleton.mp hmention]
      exact Realm.admits_imports.mpr rfl
  exact Discipline.Obeys.bind (.openModule hhome host.loader path) fun opened after _ hopens =>
    (Discipline.Respects.offerModule htrusts hopens name).obeys

/-- An import of a module that succeeds gives a namespace of new cells, and one that does not leaves
everything as it was. -/
theorem executeImport_separate
    (hmodule : (host.libraries.find? fun library => library.name = declaration.path) = none) :
    (∀ done, executeImport host (.ofSteps host steps) scope declaration state = .value done after →
      ∃ offered, Imported state.store after.store scope declaration.bindingName offered) ∧
    ∀ interrupt, executeImport host (.ofSteps host steps) scope declaration state =
      .interrupted interrupt after → Untouched scope.imports state.store after.store := by
  have hclosed : (Realm.since state.store scope.imports none).Closed state.store :=
    Realm.closed_since (by rintro ⟨⟩)
  have hobeys := obeys_realm_until_bound host steps scope declaration.path declaration.bindingName
    state hclosed
  unfold executeImport
  rw [hmodule]
  simp only [importModule_eq, ← bind_assoc]
  rw [Eval.bind_apply]
  cases hend : (do
      let opened ← openModule host.loader scope declaration.path
      offerModule (.ofSteps host steps) declaration.bindingName opened : Eval (Ref .exports))
      state with
  | halted reason => exact ⟨by rintro _ ⟨⟩, by rintro _ ⟨⟩⟩
  | interrupted interrupt final =>
    rw [hend] at hobeys
    refine ⟨by rintro _ ⟨⟩, fun _ hinterrupted => ?_⟩
    cases hinterrupted
    exact fun ref hlt htracker => hobeys.2.get_eq hlt htracker
  | value offered final =>
    rw [hend] at hobeys
    refine ⟨fun _ hvalue => ⟨offered, ?_⟩, by rintro _ ⟨⟩⟩
    cases hvalue
    obtain ⟨⟨hclosed, hkeeps⟩, hoffered⟩ := hobeys
    exact imported_of_realm declaration.bindingName hclosed hkeeps
      (Discipline.knows_ref.mp hoffered)

/-- The statement of an import ends as the import does. -/
theorem executeStatement_importing (host : Host) (evaluator : Evaluator) (scope : Scope)
    (declaration : ImportDeclaration) (span : Span) (state : State) :
    executeStatement host evaluator scope ⟨.importing declaration, span⟩ state =
      ((executeImport host evaluator scope declaration state).andThen fun _ =>
        pure (.value .nothing)).settled scope span.line :=
  executeStatement_apply host evaluator scope ⟨.importing declaration, span⟩ state

/-- The statement of an import that is carried out to its end has imported a namespace. -/
theorem imported_of_done {span : Span}
    (hmodule : (host.libraries.find? fun library => library.name = declaration.path) = none)
    (hdone : executeStatement host (.ofSteps host steps) scope ⟨.importing declaration, span⟩
      state = .value (.value .nothing) after) :
    ∃ offered, Imported state.store after.store scope declaration.bindingName offered := by
  rw [executeStatement_importing] at hdone
  cases hend : executeImport host (.ofSteps host steps) scope declaration state with
  | value done final =>
    rw [hend] at hdone
    cases hdone
    exact (executeImport_separate hmodule).1 done hend
  | interrupted interrupt final =>
    rw [hend] at hdone
    cases interrupt <;> cases hdone
  | halted reason =>
    rw [hend] at hdone
    cases hdone

/-- The statement of an import that ends in another way has changed nothing but noted imports. -/
theorem untouched_of_failed {span : Span}
    (hmodule : (host.libraries.find? fun library => library.name = declaration.path) = none)
    (hafter : (executeStatement host (.ofSteps host steps) scope ⟨.importing declaration, span⟩
      state).after? = some after)
    (hfailed : executeStatement host (.ofSteps host steps) scope ⟨.importing declaration, span⟩
      state ≠ .value (.value .nothing) after) :
    Untouched scope.imports state.store after.store := by
  rw [executeStatement_importing] at hafter hfailed
  cases hend : executeImport host (.ofSteps host steps) scope declaration state with
  | value done final =>
    rw [hend] at hafter hfailed
    cases hafter
    exact absurd rfl hfailed
  | interrupted interrupt final =>
    rw [hend, Result.after?_settled] at hafter
    cases hafter
    exact (executeImport_separate hmodule).2 interrupt hend
  | halted reason =>
    rw [hend] at hafter
    cases hafter

end Import

/-- However the import of a module ends, the calls are as they were. If it does not succeed, so is
every cell that was there, but for noted imports. If it succeeds, a name is bound in the scope of
the import to a namespace, every other cell that was there is as it was, and from the namespace only
new cells can be reached; and a second import in a row, of the same module or another one, gives a
namespace that shares no cell with the first one. -/
theorem import_separate (host : Host) (steps : Nat) (scope : Scope)
    (declaration : ImportDeclaration) (span : Span) (state : State)
    (hmodule : (host.libraries.find? fun library => library.name = declaration.path) = none) :
    let statement : Statement := ⟨.importing declaration, span⟩
    let done := executeStatement host (.ofSteps host steps) scope statement state
    (∀ after, done.after? = some after → after.calls = state.calls) ∧
    (∀ after, done.after? = some after → done ≠ .value (.value .nothing) after →
      Untouched scope.imports state.store after.store) ∧
    (∀ after, done = .value (.value .nothing) after →
      ∃ offered, Imported state.store after.store scope declaration.bindingName offered) ∧
    ∀ after, done = .value (.value .nothing) after →
      ∀ (otherHost : Host) (otherSteps : Nat) (otherScope : Scope)
        (other : ImportDeclaration) (otherSpan : Span) (final : State),
      (otherHost.libraries.find? fun library => library.name = other.path) = none →
      otherScope.here.index < state.store.size .scope →
      executeStatement otherHost (.ofSteps otherHost otherSteps) otherScope
        ⟨.importing other, otherSpan⟩ after = .value (.value .nothing) final →
      ∃ first second,
        Imported state.store after.store scope declaration.bindingName first ∧
        Imported after.store final.store otherScope other.bindingName second ∧
        ∀ {kind : CellKind} (ref : Ref kind), kind ≠ .imports →
          final.store.Reaches (.cell first) (.cell ref) →
            ¬ final.store.Reaches (.cell second) (.cell ref) := by
  intro statement done
  refine ⟨fun after hafter => ?_, fun after hafter hfailed => ?_,
    fun after hdone => imported_of_done hmodule hdone, ?_⟩
  · have hbalanced := Evaluator.balanced_ofSteps host steps
    change (executeStatement host _ scope _ state).after? = some after at hafter
    rw [executeStatement_apply, Result.after?_settled] at hafter
    exact (Composed.executeForm host scope (.importing declaration)).calls_eq hbalanced hafter
  · exact untouched_of_failed hmodule hafter hfailed
  · intro after hdone otherHost otherSteps otherScope other otherSpan final hother hexists hsecond
    obtain ⟨first, hfirst⟩ := imported_of_done hmodule hdone
    obtain ⟨second, hsecond⟩ := imported_of_done hother hsecond
    exact ⟨first, second, hfirst, hsecond,
      fun ref hkind => hfirst.disjoint hsecond hexists ref hkind⟩

/-- The state after a statement that gives nothing. -/
def Result.done? : Result Signal → Option State
  | .value (.value .nothing) after => some after
  | _ => none

/-- A result with such a state is that state with nothing given. -/
theorem Result.done?_eq_some {result : Result Signal} {after : State}
    (hdone : result.done? = some after) : result = .value (.value .nothing) after := by
  unfold done? at hdone
  split at hdone
  · cases hdone
    rfl
  · cases hdone

/-- A module with a list, imported twice under two names. -/
theorem import_separate_twice :
    let host : Host := ⟨false, .fromMemory [("a.kes", "var list = []")], [Library.math]⟩
    let importing (name : String) : Statement :=
      ⟨.importing ⟨"a", some ⟨name, default⟩, default⟩, default⟩
    let scope := (Scope.ofMain .empty "main.kes").1
    let state : State := { (default : State) with store := (Scope.ofMain .empty "main.kes").2 }
    let evaluator := Evaluator.ofSteps host 9
    ∃ middle final first second,
      executeStatement host evaluator scope (importing "one") state =
        .value (.value .nothing) middle ∧
      executeStatement host evaluator scope (importing "two") middle =
        .value (.value .nothing) final ∧
      Imported state.store middle.store scope "one" first ∧
      Imported middle.store final.store scope "two" second ∧
      ∀ {kind : CellKind} (ref : Ref kind), kind ≠ .imports →
        final.store.Reaches (.cell first) (.cell ref) →
          ¬ final.store.Reaches (.cell second) (.cell ref) := by
  intro host importing scope state evaluator
  have hruns : ((executeStatement host evaluator scope (importing "one") state).done?.bind fun
      middle => (executeStatement host evaluator scope (importing "two") middle).done?).isSome := by
    decide +kernel
  obtain ⟨final, hruns⟩ := Option.isSome_iff_exists.mp hruns
  obtain ⟨middle, hone, htwo⟩ := Option.bind_eq_some_iff.mp hruns
  have hmodule : (host.libraries.find? fun library => library.name = "a") = none := by decide
  have hexists : scope.here.index < state.store.size .scope := by decide +kernel
  obtain ⟨first, second, hfirst, hsecond, hdisjoint⟩ :=
    (import_separate host 9 scope _ default state hmodule).2.2.2 middle (Result.done?_eq_some hone)
      host 9 scope _ default final hmodule hexists (Result.done?_eq_some htwo)
  exact ⟨middle, final, first, second, Result.done?_eq_some hone, Result.done?_eq_some htwo,
    hfirst, hsecond, hdisjoint⟩

end Kestrel
