import Kestrel.Proofs.Discipline.Statement
import Kestrel.Proofs.Eval.ErrorOrigin
import Kestrel.Proofs.Eval.Steps
import Kestrel.Proofs.Eval.Unwinding
import Kestrel.Proofs.Value.Growth

/-!
# Loops over entries

A loop over a collection collects the entries before its first round. Whatever a round does to the
collection, the next one gets the next of these entries, in a scope of its own. So there are at most
as many rounds as there were entries, and a loop comes to an end if its rounds do.
-/

namespace Kestrel

namespace Value

/-- The number of entries of a collection that a loop can go through. -/
def entryCount? (store : Store) : Value → Option Nat
  | .array ref => some (store.get ref).size
  | .dictionary ref => some (store.get ref).size
  | .text characters => some (characters.content store).length
  | _ => none

/-- The entry at a place: an item of an array or a character of a string, with its place, or a value
of a dictionary, with its key. -/
def entryAt? (store : Store) (place : Nat) : Value → Option (Value × Value)
  | .array ref => (store.get ref).toList[place]?.map fun item => (.count place, item)
  | .dictionary ref => (store.get ref).entries[place]?.map fun entry => (.string entry.1, entry.2)
  | .text characters => (characters.content store).toList[place]?.map fun character =>
      (.count place, .string (String.ofList [character]))
  | _ => none

/-- A loop collects all entries of a collection, in order. -/
theorem exists_iterationEntries {given : Value} {store : Store} {count : Nat}
    (hcount : given.entryCount? store = some count) : ∃ entries,
      iterationEntries store given = .ok entries ∧ entries.length = count ∧
        ∀ place, entries[place]? = given.entryAt? store place := by
  cases given with
  | array ref =>
    cases hcount
    refine ⟨_, rfl, by simp, fun place => ?_⟩
    rw [List.getElem?_map, List.getElem?_zipIdx, Option.map_map]
    simp only [Nat.zero_add]
    rfl
  | dictionary ref =>
    cases hcount
    exact ⟨_, rfl, List.length_map _, fun place => List.getElem?_map ..⟩
  | text text =>
    cases hcount
    refine ⟨_, rfl, ?_, fun place => ?_⟩
    · rw [List.length_map, List.length_zipIdx, String.length_toList]
    · rw [List.getElem?_map, List.getElem?_zipIdx, Option.map_map]
      simp only [Nat.zero_add]
      rfl
  | _ => cases hcount

end Value

/-- A round of a loop over entries: the state before it, its scope, and the state in which its body
begins. -/
structure Round where
  before : State
  scope : Scope
  start : State

namespace Round

/-- The visit of the body in a round. -/
def visit (body : Block) (round : Round) : Visit :=
  ⟨.block round.scope body.statements, round.start⟩

/-- How the body ends in a round. -/
def ending (evaluator : Evaluator) (body : Block) (round : Round) : Result Signal :=
  evaluator.outcome (round.visit body)

/-- A round for an entry begins in a new scope inside that of the loop, in which the item and the
index are bound and nothing else is; nothing that was there before changes. -/
structure Opens (scope : Scope) (index : Option Identifier) (item : Identifier)
    (entry : Value × Value) (round : Round) : Prop where
  scope_eq : round.scope =
    { scope with here := round.before.store.next .scope, outer := scope.here :: scope.outer }
  here_lt : round.scope.here.index < round.start.store.size .scope
  bindings (name : String) : (round.scope.bindings round.start.store).get? name =
    if name = item.name then some entry.2
    else if index.map Identifier.name = some name then some entry.1 else none
  grows : round.before.store.Grows round.start.store
  calls_eq : round.start.calls = round.before.calls
  output_eq : round.start.output = round.before.output

end Round

section Bindings

variable {scope : Scope} {store before : Store}

/-- Binding a name adds no cell. -/
theorem Scope.size_bind (scope : Scope) (store : Store) (name : String) (value : Value)
    (kind : CellKind) : (scope.bind store name value).size kind = store.size kind :=
  Store.size_modify _ _ _ _

/-- What a scope binds a name to after binding one there. -/
theorem Scope.get?_bindings_bind (hlt : scope.here.index < store.size .scope) (name : String)
    (value : Value) (other : String) :
    (scope.bindings (scope.bind store name value)).get? other =
      if other = name then some value else (scope.bindings store).get? other := by
  unfold Scope.bindings Scope.bind Scope.rebind
  rw [Store.get_modify_self hlt]
  exact OrderedMap.get?_insert _ _ _ _

/-- Binding a name in a scope that has come makes no difference to the cells before it. -/
theorem Store.Grows.bind (hgrows : before.Grows store)
    (hnew : before.size .scope ≤ scope.here.index) (name : String) (value : Value) :
    before.Grows (scope.bind store name value) where
  size_le kind := by
    rw [Scope.size_bind]
    exact hgrows.size_le kind
  get_eq {kind ref} hlt := by
    have hne : kind = .scope → ref.index ≠ scope.here.index := by
      rintro rfl
      exact Nat.ne_of_lt (Nat.lt_of_lt_of_le hlt hnew)
    exact (Store.get_modify_of_ne hne _).trans (hgrows.get_eq hlt)

end Bindings

/-- Before its body, a round is opened for its entry. -/
theorem exists_round (scope : Scope) (index : Option Identifier) (item : Identifier)
    (entry : Value × Value) (state : State) : ∃ round : Round,
      round.before = state ∧ round.Opens scope index item entry ∧
        iterationScope scope index item entry state = .value round.scope round.start := by
  obtain ⟨inner, made, hchild⟩ : ∃ inner made, scope.child state.store = (inner, made) :=
    ⟨_, _, rfl⟩
  have hinner : inner =
      { scope with here := state.store.next .scope, outer := scope.here :: scope.outer } :=
    (congrArg Prod.fst hchild).symm
  have hmade : made = state.store.add .scope .empty := (congrArg Prod.snd hchild).symm
  have hnew : inner.here.index = state.store.size .scope := by
    rw [hinner]
    rfl
  have hlt : inner.here.index < made.size .scope := by
    rw [hinner, hmade]
    exact state.store.next_lt_size_add .scope .empty
  have hempty (name : String) : (inner.bindings made).get? name = none := by
    have hget : inner.bindings made = .empty := by
      rw [hinner, hmade]
      exact Store.get_add_next _ _ _
    rw [hget]
    rfl
  have hgrows : state.store.Grows made := by
    rw [hmade]
    exact .add _ _ _
  cases index with
  | none =>
    refine ⟨⟨state, inner, { state with store := inner.bind made item.name entry.2 }⟩, rfl,
      ⟨hinner, ?_, fun name => ?_, hgrows.bind hnew.ge _ _, rfl, rfl⟩, ?_⟩
    · rwa [Scope.size_bind]
    · rw [Scope.get?_bindings_bind hlt, hempty]
      rfl
    · rw [hinner, hmade]
      rfl
  | some index =>
    have hbound : inner.here.index < (inner.bind made index.name entry.1).size .scope := by
      rwa [Scope.size_bind]
    have hindexed : state.store.Grows (inner.bind made index.name entry.1) :=
      hgrows.bind hnew.ge _ _
    refine ⟨⟨state, inner, { state with
        store := inner.bind (inner.bind made index.name entry.1) item.name entry.2 }⟩, rfl,
      ⟨hinner, ?_, fun name => ?_, hindexed.bind hnew.ge _ _, rfl, rfl⟩, ?_⟩
    · rwa [Scope.size_bind]
    · rw [Scope.get?_bindings_bind hbound, Scope.get?_bindings_bind hlt, hempty]
      simp only [Option.map_some, Option.some.injEq, eq_comm]
    · rw [hinner, hmade]
      rfl

/-- A round ends with a signal that the loop goes on after. -/
inductive Result.GoesOn : Result Signal → State → Prop
  | value (given : Value) (next : State) : GoesOn (.value (.value given) next) next
  | continuing (next : State) : GoesOn (.value (.exit .continuing) next) next

/-- A round ends the loop: with a `break`, and with what ends whatever is around the loop, too. -/
inductive Result.EndsLoop : Result Signal → Result Signal → Prop
  | breaking (after : State) :
    EndsLoop (.value (.exit .breaking) after) (.value (.value .nothing) after)
  | returned (given : Value) (after : State) :
    EndsLoop (.value (.returned given) after) (.value (.returned given) after)
  | error (error : RuntimeError) (after : State) :
    EndsLoop (.interrupted (.error error) after) (.interrupted (.error error) after)
  | halted (reason : Halt) : EndsLoop (.halted reason) (.halted reason)

/-- A loop with so many entries left goes through rounds, from one state on and to an end: each
round begins where the one before went on, and the rounds are over with the entries or with the
first one that ends the loop. -/
inductive Evaluator.Iterates (evaluator : Evaluator) (body : Block) :
    Nat → State → List Round → Result Signal → Prop
  | done (state : State) : Iterates evaluator body 0 state [] (.value (.value .nothing) state)
  | next {left : Nat} {round : Round} {next : State} {rounds : List Round} {result : Result Signal}
    (hround : (round.ending evaluator body).GoesOn next)
    (hrounds : Iterates evaluator body left next rounds result) :
    Iterates evaluator body (left + 1) round.before (round :: rounds) result
  | last {left : Nat} {round : Round} {result : Result Signal}
    (hround : (round.ending evaluator body).EndsLoop result) :
    Iterates evaluator body (left + 1) round.before [round] result

section Rounds

variable {evaluator : Evaluator} {scope : Scope} {index : Option Identifier} {item : Identifier}
  {body : Block} {state : State}

/-- There are at most as many rounds as entries. -/
theorem Evaluator.Iterates.length_le {left : Nat} {rounds : List Round} {result : Result Signal}
    (hiterates : evaluator.Iterates body left state rounds result) : rounds.length ≤ left := by
  induction hiterates with
  | done state => exact Nat.le_refl 0
  | next hround hrounds ih => exact Nat.succ_le_succ ih
  | last hround => exact Nat.succ_le_succ (Nat.zero_le _)

/-- A round that no loop exit interrupts goes on with the loop or ends it. -/
theorem Result.Confined.goesOn_or_endsLoop {result : Result Signal} (hconfined : result.Confined) :
    (∃ next, result.GoesOn next) ∨ ∃ final, result.EndsLoop final := by
  cases result with
  | value signal after =>
    cases signal with
    | value given => exact .inl ⟨after, .value given after⟩
    | returned given => exact .inr ⟨_, .returned given after⟩
    | exit exit =>
      cases exit with
      | breaking => exact .inr ⟨_, .breaking after⟩
      | continuing => exact .inl ⟨after, .continuing after⟩
  | interrupted interrupt after =>
    cases interrupt with
    | error error => exact .inr ⟨_, .error error after⟩
    | loopExit exit => exact absurd rfl (hconfined exit after)
  | halted reason => exact .inr ⟨_, .halted reason⟩

/-- The next round begins where a round goes on. -/
theorem Result.GoesOn.andThen {result : Result Signal} {next : State} (hgoes : result.GoesOn next)
    (rounds : Eval Signal) : result.andThen (Signal.thenRound rounds) = rounds next := by
  cases hgoes <;> rfl

/-- A round that ends the loop is not followed by another one. -/
theorem Result.EndsLoop.andThen {result final : Result Signal} (hends : result.EndsLoop final)
    (rounds : Eval Signal) : result.andThen (Signal.thenRound rounds) = final := by
  cases hends <;> rfl

/-- Only a round that is halted halts the loop. -/
theorem Result.EndsLoop.of_halted {result : Result Signal} {reason : Halt}
    (hends : result.EndsLoop (.halted reason)) : result = .halted reason := by
  cases hends
  rfl

/-- After a round that goes on, what is asked for is what the rounds from there on ask for. -/
theorem Result.GoesOn.asks_thenRound_iff {result : Result Signal} {next : State}
    (hgoes : result.GoesOn next) {rounds : Construct Signal} {visit : Visit} :
    (∃ signal after, result = .value signal after ∧
        Asks (fun e => signal.thenRound (rounds e)) evaluator after visit) ↔
      Asks rounds evaluator next visit := by
  constructor
  · rintro ⟨signal, after, hsignal, hasks⟩
    obtain ⟨hasks, _⟩ := asks_thenRound hasks
    cases hgoes <;> cases hsignal <;> exact hasks
  · intro hasks
    cases hgoes with
    | value given next => exact ⟨_, _, rfl, hasks⟩
    | continuing next => exact ⟨_, _, rfl, hasks⟩

/-- After a round that ends the loop nothing is asked for. -/
theorem Result.EndsLoop.not_asks_thenRound {result final : Result Signal}
    (hends : result.EndsLoop final) {rounds : Construct Signal} {visit : Visit} :
    ¬ ∃ signal after, result = .value signal after ∧
      Asks (fun e => signal.thenRound (rounds e)) evaluator after visit := by
  rintro ⟨signal, after, hsignal, hasks⟩
  cases hends with
  | breaking last =>
    cases hsignal
    exact absurd hasks (ignores_const _ _ _ _).not_asks
  | returned given last =>
    cases hsignal
    exact absurd hasks (ignores_const _ _ _ _).not_asks
  | error error last => cases hsignal
  | halted reason => cases hsignal

/-- A loop over entries asks for the body in the round of its first entry, and then for what follows
this round. -/
theorem asks_executeRounds_cons_iff {entry : Value × Value} {others : List (Value × Value)}
    {round : Round} (hround : iterationScope scope index item entry state =
      .value round.scope round.start) {visit : Visit} :
    Asks (fun e => executeRounds e scope index item body (entry :: others)) evaluator state visit ↔
      visit = round.visit body ∨ ∃ signal after,
        round.ending evaluator body = .value signal after ∧
          Asks (fun e => signal.thenRound (executeRounds e scope index item body others)) evaluator
            after visit := by
  simp only [executeRounds_cons]
  have hopening : Composed .form fun _ => iterationScope scope index item entry :=
    .plain (.iterationScope _ _ _ _)
  have hbody : Composed .form fun e => e.block round.scope body.statements :=
    .block round.scope body.statements
  refine hopening.asks_bind_iff.trans ⟨?_, fun hvisit => ?_⟩
  · rintro (hasks | ⟨inner, start, hopened, hasks⟩)
    · exact absurd hasks (ignores_const _ _ _ _).not_asks
    · rw [hround] at hopened
      cases hopened
      exact (hbody.asks_bind_iff.mp hasks).imp_left
        (@asks_perform_iff (.block round.scope body.statements) _ _ _).mp
  · refine .inr ⟨round.scope, round.start, hround, hbody.asks_bind_iff.mpr ?_⟩
    exact hvisit.imp_left (@asks_perform_iff (.block round.scope body.statements) _ _ _).mpr

/-- After the round of its first entry, a loop over entries goes on as this round says. -/
theorem executeRounds_of_round {entry : Value × Value} {others : List (Value × Value)}
    {round : Round} (hround : iterationScope scope index item entry state =
      .value round.scope round.start) :
    executeRounds evaluator scope index item body (entry :: others) state =
      (round.ending evaluator body).andThen
        (Signal.thenRound (executeRounds evaluator scope index item body others)) := by
  rw [executeRounds_cons, Eval.bind_of_value hround, Eval.bind_apply]
  rfl

/-- A loop over entries goes through rounds: it asks for the body in each of them and for nothing
else, and each round is opened for the entry at its place. -/
theorem executeRounds_iterates
    (hconfined : ∀ inner parts start, (evaluator.block inner parts start).Confined)
    (scope : Scope) (index : Option Identifier) (item : Identifier) (body : Block)
    (entries : List (Value × Value)) (state : State) : ∃ rounds,
      evaluator.Iterates body entries.length state rounds
        (executeRounds evaluator scope index item body entries state) ∧
      (∀ visit,
        Asks (fun e => executeRounds e scope index item body entries) evaluator state visit ↔
          ∃ round ∈ rounds, visit = round.visit body) ∧
      ∀ (place : Nat) (round : Round), rounds[place]? = some round →
        ∃ entry, entries[place]? = some entry ∧ round.Opens scope index item entry := by
  induction entries generalizing state with
  | nil =>
    refine ⟨[], .done state, fun visit => ?_, fun place round hround => ?_⟩
    · simp only [List.not_mem_nil, false_and, exists_false, iff_false]
      exact (ignores_const _ _ _ _).not_asks
    · cases hround
  | cons entry others ih =>
    obtain ⟨round, rfl, hopens, hround⟩ := exists_round scope index item entry state
    rw [executeRounds_of_round hround]
    simp only [asks_executeRounds_cons_iff hround]
    have hround : (round.ending evaluator body).Confined :=
      hconfined round.scope body.statements round.start
    rcases hround.goesOn_or_endsLoop with ⟨next, hgoes⟩ | ⟨final, hends⟩
    · obtain ⟨rounds, hiterates, hvisits, hentries⟩ := ih next
      rw [hgoes.andThen]
      refine ⟨round :: rounds, .next hgoes hiterates, fun visit => ?_, ?_⟩
      · rw [List.exists_mem_cons_iff]
        exact or_congr_right (hgoes.asks_thenRound_iff.trans (hvisits visit))
      · intro place other hother
        cases place with
        | zero =>
          cases hother
          exact ⟨entry, rfl, hopens⟩
        | succ place => exact hentries place other hother
    · rw [hends.andThen]
      refine ⟨[round], .last hends, fun visit => ?_, ?_⟩
      · simp only [List.mem_singleton, exists_eq_left, or_iff_left_iff_imp]
        exact fun hasks => absurd hasks hends.not_asks_thenRound
      · intro place other hother
        cases place with
        | zero =>
          cases hother
          exact ⟨entry, rfl, hopens⟩
        | succ place => cases hother

/-- What interrupts a loop over entries interrupts the body in a round. -/
theorem Evaluator.Iterates.interrupted {left : Nat} {rounds : List Round} {result : Result Signal}
    {interrupt : Interrupt} {after : State}
    (hiterates : evaluator.Iterates body left state rounds result)
    (hresult : result = .interrupted interrupt after) :
    ∃ round ∈ rounds, round.ending evaluator body = .interrupted interrupt after := by
  induction hiterates with
  | done state => cases hresult
  | next hround hrounds ih =>
    obtain ⟨round, hmem, hending⟩ := ih hresult
    exact ⟨round, List.mem_cons_of_mem _ hmem, hending⟩
  | @last left round result hround =>
    refine ⟨round, List.mem_singleton_self _, ?_⟩
    subst hresult
    generalize round.ending evaluator body = ending at hround
    cases hround
    rfl

/-- Where no visit loses a scope, the scope of a round comes after those of the rounds before. -/
theorem Evaluator.Iterates.scopes_lt {left : Nat} {rounds : List Round} {result : Result Signal}
    (hstay : ∀ visit after, (evaluator.outcome visit).after? = some after →
      visit.state.store.size .scope ≤ after.store.size .scope)
    (hiterates : evaluator.Iterates body left state rounds result)
    (hopens : ∀ round ∈ rounds, ∃ entry, round.Opens scope index item entry) :
    (∀ round ∈ rounds, state.store.size .scope ≤ round.scope.here.index) ∧
      rounds.Pairwise fun earlier later => earlier.scope.here.index < later.scope.here.index := by
  have hhere (round : Round) (hround : ∃ entry, round.Opens scope index item entry) :
      round.scope.here.index = round.before.store.size .scope := by
    obtain ⟨entry, hround⟩ := hround
    rw [hround.scope_eq]
    rfl
  induction hiterates with
  | done state => exact ⟨by simp, .nil⟩
  | @next left round next rounds result hround hrounds ih =>
    obtain ⟨hfirst, hopens⟩ := List.forall_mem_cons.mp hopens
    obtain ⟨hlater, hpairwise⟩ := ih hopens
    have hnext : round.scope.here.index < next.store.size .scope := by
      have hafter : (round.ending evaluator body).after? = some next := by
        generalize round.ending evaluator body = ending at hround
        cases hround <;> rfl
      obtain ⟨entry, hfirst⟩ := hfirst
      exact Nat.lt_of_lt_of_le hfirst.here_lt (hstay _ _ hafter)
    have hle := Nat.le_of_eq (hhere round hfirst).symm
    refine ⟨List.forall_mem_cons.mpr ⟨hle, fun later hmem => ?_⟩,
      .cons (fun later hmem => Nat.lt_of_lt_of_le hnext (hlater later hmem)) hpairwise⟩
    exact Nat.le_trans hle (Nat.le_trans (Nat.le_of_lt hnext) (hlater later hmem))
  | @last left round result hround =>
    refine ⟨?_, List.pairwise_singleton _ _⟩
    intro other hmem
    obtain rfl := List.mem_singleton.mp hmem
    exact Nat.le_of_eq (hhere other (hopens other hmem)).symm

end Rounds

/-- The discipline that keeps the first scopes, so many as are given. -/
def Discipline.scopes (count : Nat) : Discipline where
  holds store := count ≤ store.size .scope
  admits _ _ := True
  binds _ _ := True
  allows _ _ := True
  allows_refl _ := trivial
  allows_trans _ _ := trivial
  admits_later _ _ := trivial
  admits_held _ _ _ := trivial
  add {store kind content} hcount _ _ _ :=
    ⟨⟨Nat.le_trans hcount (store.size_le_size_add kind .scope content), trivial⟩, trivial⟩
  binds_next _ _ := trivial
  modify {store kind ref f} hcount _ _ _ _ _ := by
    rw [← store.size_modify ref f .scope] at hcount
    exact ⟨hcount, trivial⟩
  rebind {store ref name value} hcount _ _ _ :=
    ⟨Nat.le_trans hcount (Nat.le_of_eq (store.size_modify ref _ .scope).symm), trivial⟩
  record {store imports target importer graph} hcount _ _ _ := by
    rw [← store.size_modify imports (fun _ => graph) .scope] at hcount
    exact ⟨⟨hcount, trivial⟩, trivial⟩

/-- No visit loses a scope. -/
theorem Evaluator.scopes_stay (host : Host) (steps : Nat) (visit : Visit) (after : State)
    (hafter : ((ofSteps host steps).outcome visit).after? = some after) :
    visit.state.store.size .scope ≤ after.store.size .scope := by
  let D := Discipline.scopes (visit.state.store.size .scope)
  have hready : D.Ready visit.state.store visit.task := by
    cases visit.task with
    | expression scope part => exact fun _ _ => trivial
    | statement scope part => exact ⟨fun _ _ => trivial, fun _ _ => trivial⟩
    | block scope parts => exact ⟨fun _ _ => trivial, fun _ => trivial⟩
  have hbegins : D.Begins visit.state.store visit := ⟨⟨Nat.le_refl _, trivial⟩, hready⟩
  exact (((D.trusts_ofSteps host steps).outcome hbegins).passes hafter).1

section Loop

variable {host : Host} {scope : Scope} {index : Option Identifier} {item : Identifier}
  {iterable : Expression} {body : Block} {inner span : Span} {state middle : State}
  {given : Value} {entries : List (Value × Value)}

/-- A loop goes through the entries that its collection has once it is evaluated. -/
theorem executeForm_forEach {evaluator : Evaluator}
    (hgiven : evaluator.expression scope iterable state = .value given middle)
    (hentries : iterationEntries middle.store given = .ok entries) :
    executeForm host evaluator scope (.forEach index item iterable body inner) state =
      executeRounds evaluator scope index item body entries middle := by
  exact (Eval.bind_of_value hgiven _).trans
    (Eval.bind_of_value (Eval.viewOrFail_of_ok hentries) _)

/-- A loop asks for its collection, and for what is asked for in going through the entries. -/
theorem asks_forEach_iff {evaluator : Evaluator}
    (hgiven : evaluator.expression scope iterable state = .value given middle)
    (hentries : iterationEntries middle.store given = .ok entries) {visit : Visit} :
    Asks (fun e => executeForm host e scope (.forEach index item iterable body inner)) evaluator
        state visit ↔
      visit = ⟨.expression scope iterable, state⟩ ∨
        Asks (fun e => executeRounds e scope index item body entries) evaluator middle visit := by
  have hview : Eval.viewOrFail (fun store => iterationEntries store given) middle =
      .value entries middle := Eval.viewOrFail_of_ok hentries
  have hiterable : Composed .form fun e => e.expression scope iterable :=
    .expression (by simp) scope iterable
  have hcollect : Composed .form fun _ =>
      Eval.viewOrFail fun store => iterationEntries store given :=
    .plain (.viewOrFail _)
  refine hiterable.asks_bind_iff.trans (or_congr
    (@asks_perform_iff (.expression scope iterable) _ _ _) ⟨?_, fun hasks => ?_⟩)
  · rintro ⟨other, after, hother, hasks⟩
    rw [hgiven] at hother
    cases hother
    obtain ⟨collected, after, hcollected, hasks⟩ := asks_after_const hasks
    rw [hview] at hcollected
    cases hcollected
    exact hasks
  · exact ⟨given, middle, hgiven, hcollect.asks_bind_iff.mpr (.inr ⟨entries, middle, hview, hasks⟩)⟩

/-- Nothing remains to be done at the end of a statement that is a loop over entries. -/
theorem executeStatement_forEach {steps : Nat}
    (hgiven : (Evaluator.ofSteps host steps).expression scope iterable state = .value given middle)
    (hentries : iterationEntries middle.store given = .ok entries) :
    executeStatement host (.ofSteps host steps) scope
        ⟨.forEach index item iterable body inner, span⟩ state =
      executeRounds (.ofSteps host steps) scope index item body entries middle := by
  rw [executeStatement_apply, executeForm_forEach hgiven hentries]
  obtain ⟨rounds, hiterates, _⟩ := executeRounds_iterates (Evaluator.confined_block host steps)
    scope index item body entries middle
  cases hend : executeRounds (.ofSteps host steps) scope index item body entries middle with
  | value signal after => rfl
  | halted reason => rfl
  | interrupted interrupt after =>
    obtain ⟨round, _, hround⟩ := hiterates.interrupted hend
    obtain ⟨error, location, rfl, hlocation⟩ := Evaluator.block_located host steps hround
    simp only [Result.settled, RuntimeError.locate_of_located hlocation]

/-- Going through entries comes to an end if every round does that is begun with enough steps. -/
theorem executeRounds_terminates (entries : List (Value × Value)) (state : State) (least : Nat)
    (hrounds : ∀ steps, least ≤ steps → ∀ visit,
      Asks (fun e => executeRounds e scope index item body entries) (.ofSteps host steps) state
        visit → visit.Terminates host) :
    ∃ steps, least ≤ steps ∧ ∀ reason,
      executeRounds (.ofSteps host steps) scope index item body entries state ≠ .halted reason := by
  induction entries generalizing state least with
  | nil => exact ⟨least, Nat.le_refl _, fun reason hend => by cases hend⟩
  | cons entry others ih =>
    obtain ⟨round, rfl, hopens, hround⟩ := exists_round scope index item entry state
    have hasks {steps : Nat} {visit : Visit} := @asks_executeRounds_cons_iff (.ofSteps host steps)
      scope index item body round.before entry others round hround visit
    obtain ⟨enough, henough⟩ : (round.visit body).Terminates host :=
      hrounds least (Nat.le_refl _) _ (hasks.mpr (.inl rfl))
    have hsame {steps : Nat} (hsteps : max least enough ≤ steps) :
        round.ending (.ofSteps host steps) body = round.ending (.ofSteps host enough) body :=
      Visit.outcome_eq_of_le host (Nat.le_trans (Nat.le_max_right _ _) hsteps)
        (henough .outOfSteps)
    have hend {steps : Nat} (hsteps : max least enough ≤ steps) :
        executeRounds (.ofSteps host steps) scope index item body (entry :: others) round.before =
          (round.ending (.ofSteps host enough) body).andThen (Signal.thenRound
            (executeRounds (.ofSteps host steps) scope index item body others)) := by
      rw [executeRounds_of_round hround, hsame hsteps]
    have hconfined : (round.ending (.ofSteps host enough) body).Confined :=
      Evaluator.confined_block host enough round.scope body.statements round.start
    rcases hconfined.goesOn_or_endsLoop with ⟨next, hgoes⟩ | ⟨final, hends⟩
    · have hlater : ∀ steps, max least enough ≤ steps → ∀ visit,
          Asks (fun e => executeRounds e scope index item body others) (.ofSteps host steps) next
            visit → visit.Terminates host := by
        intro steps hsteps visit hvisit
        refine hrounds steps (Nat.le_trans (Nat.le_max_left _ _) hsteps) visit (hasks.mpr (.inr ?_))
        rw [hsame hsteps]
        exact hgoes.asks_thenRound_iff.mpr hvisit
      obtain ⟨steps, hsteps, hothers⟩ := ih next (max least enough) hlater
      refine ⟨steps, Nat.le_trans (Nat.le_max_left _ _) hsteps, fun reason => ?_⟩
      rw [hend hsteps, hgoes.andThen]
      exact hothers reason
    · refine ⟨max least enough, Nat.le_max_left _ _, fun reason hhalted => ?_⟩
      rw [hend (Nat.le_refl _), hends.andThen] at hhalted
      subst hhalted
      exact henough reason hends.of_halted

/-- A statement that is a loop leads to its collection, and to what is asked for in going through
the entries. -/
theorem leads_forEach_iff {steps : Nat}
    (hgiven : (Evaluator.ofSteps host steps).expression scope iterable state = .value given middle)
    (hentries : iterationEntries middle.store given = .ok entries) {visit : Visit} :
    Leads host steps ⟨.statement scope ⟨.forEach index item iterable body inner, span⟩, state⟩
        visit ↔
      visit = ⟨.expression scope iterable, state⟩ ∨
        Asks (fun e => executeRounds e scope index item body entries) (.ofSteps host steps) middle
          visit :=
  Task.asks_construct_iff.trans
    (@asks_forEach_iff host scope index item iterable body inner state middle given entries _ hgiven
      hentries visit)

/-- A loop over entries comes to an end if the body does whenever the loop leads to it. -/
theorem forEach_terminates {steps : Nat}
    (hgiven : (Evaluator.ofSteps host steps).expression scope iterable state = .value given middle)
    (hentries : iterationEntries middle.store given = .ok entries)
    (hrounds : ∀ more made start,
      Leads host more ⟨.statement scope ⟨.forEach index item iterable body inner, span⟩, state⟩
        ⟨.block made body.statements, start⟩ →
          (⟨.block made body.statements, start⟩ : Visit).Terminates host) :
    (⟨.statement scope ⟨.forEach index item iterable body inner, span⟩, state⟩ : Visit).Terminates
      host := by
  have hmore {more : Nat} (hle : steps ≤ more) :
      (Evaluator.ofSteps host more).expression scope iterable state = .value given middle := by
    have hnot : (Evaluator.ofSteps host steps).outcome ⟨.expression scope iterable, state⟩ ≠
        .halted .outOfSteps := by
      intro hhalted
      cases hgiven.symm.trans hhalted
    exact (Visit.outcome_eq_of_le host hle hnot).trans hgiven
  obtain ⟨enough, hle, hend⟩ : ∃ enough, steps ≤ enough ∧ ∀ reason,
      executeRounds (.ofSteps host enough) scope index item body entries middle ≠
        .halted reason := by
    refine executeRounds_terminates entries middle steps fun more hle visit hasks => ?_
    obtain ⟨rounds, _, hvisits, _⟩ := executeRounds_iterates (Evaluator.confined_block host more)
      scope index item body entries middle
    obtain ⟨round, _, rfl⟩ := (hvisits visit).mp hasks
    exact hrounds more _ _ ((leads_forEach_iff (hmore hle) hentries).mpr (.inr hasks))
  refine ⟨enough + 1, fun reason => ?_⟩
  rw [Evaluator.outcome_ofSteps_succ]
  intro hhalted
  exact hend reason ((executeStatement_forEach (hmore hle) hentries).symm.trans hhalted)

end Loop

/-- A loop goes through the entries that its collection has when it is evaluated: there are at most
as many rounds, the statement leads to the body in each of them and to the body nowhere else, and
the round at each place is opened for the entry at this place, in a scope that no round before it
has. A round begins where the one before went on, and they are over with the entries or with the
first that breaks, returns or fails; then so does the loop, but for a `break`. A `continue` that
leaves anything that a round comes to, also a function that is called there, ends the round and the
loop goes on, unless a statement in between stops it. If the body comes to an end whenever it is
begun, so does the loop. -/
theorem forEach_iterates_snapshot (host : Host) (steps : Nat) (scope : Scope)
    (index : Option Identifier) (item : Identifier) (iterable : Expression) (body : Block)
    (inner span : Span) (state middle : State) (given : Value) (count : Nat)
    (hgiven : (Evaluator.ofSteps host steps).expression scope iterable state = .value given middle)
    (hcount : given.entryCount? middle.store = some count) :
    let evaluator := Evaluator.ofSteps host steps
    let loop : Visit := ⟨.statement scope ⟨.forEach index item iterable body inner, span⟩, state⟩
    (∃ rounds : List Round,
      rounds.length ≤ count ∧
      (∀ visit, Leads host steps loop visit ↔
        visit = ⟨.expression scope iterable, state⟩ ∨
          ∃ round ∈ rounds, visit = round.visit body) ∧
      (∀ (place : Nat) (round : Round), rounds[place]? = some round →
        ∃ entry, given.entryAt? middle.store place = some entry ∧
          round.Opens scope index item entry) ∧
      (rounds.Pairwise fun earlier later => earlier.scope.here ≠ later.scope.here) ∧
      evaluator.Iterates body count middle rounds
        ((Evaluator.ofSteps host (steps + 1)).outcome loop) ∧
      ∀ round ∈ rounds, ∀ left visit after,
        Reaches host steps (round.visit body) left visit →
        (Evaluator.ofSteps host left).LetsOut .continuing visit after →
          (∃ next, (round.ending evaluator body).GoesOn next) ∨
            StopsBetween host .continuing steps (round.visit body) left visit) ∧
    ((∀ more made start, Leads host more loop ⟨.block made body.statements, start⟩ →
        (⟨.block made body.statements, start⟩ : Visit).Terminates host) →
      loop.Terminates host) := by
  intro evaluator loop
  obtain ⟨entries, hentries, rfl, hplaces⟩ := Value.exists_iterationEntries hcount
  obtain ⟨rounds, hiterates, hvisits, hopens⟩ := executeRounds_iterates
    (Evaluator.confined_block host steps) scope index item body entries middle
  refine ⟨⟨rounds, hiterates.length_le, fun visit => ?_, fun place round hround => ?_, ?_, ?_, ?_⟩,
    forEach_terminates hgiven hentries⟩
  · rw [leads_forEach_iff hgiven hentries, hvisits]
  · rw [← hplaces]
    exact hopens place round hround
  · have hall : ∀ round ∈ rounds, ∃ entry, round.Opens scope index item entry := by
      intro round hmem
      obtain ⟨place, hplace⟩ := List.mem_iff_getElem?.mp hmem
      obtain ⟨entry, _, hround⟩ := hopens place round hplace
      exact ⟨entry, hround⟩
    have hpairwise := (hiterates.scopes_lt (Evaluator.scopes_stay host steps) hall).2
    refine hpairwise.imp fun hlt heq => ?_
    rw [heq] at hlt
    exact Nat.lt_irrefl _ hlt
  · have hloop : (Evaluator.ofSteps host (steps + 1)).outcome loop =
        executeRounds evaluator scope index item body entries middle :=
      (Evaluator.outcome_ofSteps_succ host steps loop).trans
        (executeStatement_forEach hgiven hentries)
    rw [hloop]
    exact hiterates
  · intro round _ left visit after hreaches hout
    refine (hreaches.unwinds_or_stops hout).imp_left fun hunwinds => ?_
    obtain ⟨next, hnext⟩ := hunwinds.letsOut
    refine ⟨next, ?_⟩
    have hending : round.ending evaluator body = .value (.exit .continuing) next := hnext
    rw [hending]
    exact .continuing next

/-- A loop over an array to which its body adds the item. There is one round, for the item that was
there, and two items in the end. -/
theorem forEach_iterates_growing_array :
    let part (form : ExpressionForm) : Expression := ⟨form, default⟩
    let items := part (.identifier "items")
    let adding := part (.call (part (.member items ⟨"add", default⟩)) [part (.identifier "item")])
    let body : Block := ⟨[⟨.expression adding, default⟩], default⟩
    let host : Host := ⟨false, .fromMemory [], []⟩
    let array : Ref .array := ⟨0⟩
    let bindings : OrderedMap Value := .ofList [("items", .array array)]
    let state : State := { (default : State) with
      store := (Store.empty.add .array #[.bool true]).add .scope bindings }
    let scope : Scope := ⟨⟨0⟩, [], "main", ⟨0⟩⟩
    let loop : Visit :=
      ⟨.statement scope ⟨.forEach none ⟨"item", default⟩ items body default, default⟩, state⟩
    (Value.array array).entryCount? state.store = some 1 ∧
      (∃ after, (Evaluator.ofSteps host 9).outcome loop = .value (.value .nothing) after ∧
        (after.store.get array).size = 2) ∧
      ∃ rounds : List Round, rounds.length ≤ 1 ∧
        ∀ visit, Leads host 8 loop visit ↔
          visit = ⟨.expression scope items, state⟩ ∨
            ∃ round ∈ rounds, visit = round.visit body := by
  intro part items adding body host array bindings state scope loop
  have hgiven : (Evaluator.ofSteps host 8).expression scope items state =
      .value (.array array) state := rfl
  have hcount : (Value.array array).entryCount? state.store = some 1 := rfl
  obtain ⟨⟨rounds, hlength, hvisits, _⟩, _⟩ := forEach_iterates_snapshot host 8 scope none
    ⟨"item", default⟩ items body default default state state (.array array) 1 hgiven hcount
  exact ⟨hcount, ⟨_, rfl, rfl⟩, rounds, hlength, hvisits⟩

end Kestrel
