import Kestrel.Proofs.Eval.ErrorOrigin
import Kestrel.Proofs.Store

/-!
# The end of a `try` statement

The finally block of a `try` statement begins once, after the body and the catch block, wherever
these ended, and its own end counts if it is not normal. Otherwise the pending end is the end of the
statement. It is not changed on the way: no loop exit interrupts a block, and the errors of a block
have their origin already, so nothing remains to be done when the statement ends.
-/

namespace Kestrel

section Attempt

variable (host : Host) (steps : Nat) (scope : Scope) (body : Block)
  (catchBlock finallyBlock : Option Block) (state : State)

/-- What interrupts a `try` statement is an error that has its origin already. -/
theorem executeAttempt_located {interrupt : Interrupt} {after : State}
    (hinterrupted : executeAttempt (.ofSteps host steps) scope body catchBlock finallyBlock state =
      .interrupted interrupt after) :
    ∃ error location, interrupt = .error error ∧ error.location? = some location := by
  obtain ⟨visit, hasks, hvisit⟩ := executeAttempt_interrupted hinterrupted
  obtain ⟨inner, parts, start, rfl⟩ := exists_block_of_asks_executeAttempt hasks
  obtain ⟨final, hend⟩ := hvisit
  exact Evaluator.block_located host steps hend

/-- A `try` statement ends as its blocks say. -/
theorem executeStatement_attempt (inner span : Span) :
    executeStatement host (.ofSteps host steps) scope
        ⟨.attempt body catchBlock finallyBlock inner, span⟩ state =
      executeAttempt (.ofSteps host steps) scope body catchBlock finallyBlock state := by
  rw [executeStatement_apply]
  change (executeAttempt (.ofSteps host steps) scope body catchBlock finallyBlock state).settled
    scope span.line = _
  cases hend : executeAttempt (.ofSteps host steps) scope body catchBlock finallyBlock state with
  | value signal after => rfl
  | halted reason => rfl
  | interrupted interrupt after =>
    obtain ⟨error, location, rfl, hlocation⟩ := executeAttempt_located host steps scope body
      catchBlock finallyBlock state hend
    simp only [Result.settled, RuntimeError.locate_of_located hlocation]

/-- The visits of a `try` statement with a finally block: the body, the catch block after an error
of the body, and the finally block where the pending end was reached. -/
theorem leads_finally_iff (final : Block) (inner span : Span) (visit : Visit) :
    Leads host steps
        ⟨.statement scope ⟨.attempt body catchBlock (some final) inner, span⟩, state⟩ visit ↔
      visit = .scoped scope body state ∨
      (∃ error middle block,
        (Evaluator.ofSteps host steps).outcome (.scoped scope body state) =
            .interrupted (.error error) middle ∧
          catchBlock = some block ∧ visit = .handling scope block (.error error) middle) ∨
      ∃ middle,
        ((Evaluator.ofSteps host steps).pendingEnd scope body catchBlock state).after? =
            some middle ∧
          visit = .scoped scope final middle := by
  rw [leads_attempt_iff, or_assoc]
  refine or_congr_right (or_congr ?_ ?_)
  · constructor
    · rintro ⟨interrupt, middle, block, hend, hcatch, hvisit⟩
      cases interrupt with
      | error error => exact ⟨error, middle, block, hend, hcatch, hvisit⟩
      | loopExit exit =>
        exact absurd hend (Evaluator.confined_block host steps _ body.statements _ exit middle)
    · rintro ⟨error, middle, block, hend, hcatch, hvisit⟩
      exact ⟨.error error, middle, block, hend, hcatch, hvisit⟩
  · constructor
    · rintro ⟨middle, block, hmiddle, ⟨⟩, hvisit⟩
      exact ⟨middle, hmiddle, hvisit⟩
    · rintro ⟨middle, hmiddle, hvisit⟩
      exact ⟨middle, final, hmiddle, rfl, hvisit⟩

/-- The finally block begins with the call stack of the `try` statement. -/
theorem pendingEnd_calls {middle : State}
    (hmiddle : ((Evaluator.ofSteps host steps).pendingEnd scope body catchBlock state).after? =
      some middle) : middle.calls = state.calls :=
  (Evaluator.balanced_ofSteps host steps).afterBody
    (fun _ hbody => Evaluator.balanced_ofSteps host steps _ _ hbody) hmiddle

/-- The pending end is that of the body, unless the body ended with an error and there is a catch
block; then it is that of the catch block. -/
theorem pendingEnd_cases :
    (∃ error middle block,
      (Evaluator.ofSteps host steps).outcome (.scoped scope body state) =
          .interrupted (.error error) middle ∧
        catchBlock = some block ∧
        (Evaluator.ofSteps host steps).pendingEnd scope body catchBlock state =
          (Evaluator.ofSteps host steps).outcome (.handling scope block (.error error) middle)) ∨
    (¬ ∃ error middle block,
      (Evaluator.ofSteps host steps).outcome (.scoped scope body state) =
          .interrupted (.error error) middle ∧ catchBlock = some block) ∧
      (Evaluator.ofSteps host steps).pendingEnd scope body catchBlock state =
        (Evaluator.ofSteps host steps).outcome (.scoped scope body state) := by
  by_cases hcaught : ∃ error middle block,
      (Evaluator.ofSteps host steps).outcome (.scoped scope body state) =
        .interrupted (.error error) middle ∧ catchBlock = some block
  · obtain ⟨error, middle, block, hend, rfl⟩ := hcaught
    left
    refine ⟨error, middle, block, hend, rfl, ?_⟩
    unfold Evaluator.pendingEnd
    rw [hend]
    rfl
  · refine .inr ⟨hcaught, Evaluator.afterBody_of_not_caught _ _ ?_⟩
    rintro ⟨interrupt, middle, block, hend, hcatch⟩
    cases interrupt with
    | error error => exact hcaught ⟨error, middle, block, hend, hcatch⟩
    | loopExit exit =>
      exact absurd hend (Evaluator.confined_block host steps _ body.statements _ exit middle)

end Attempt

/-- Whatever carries out its blocks, a `try` statement whose pending end was reached ends as its
finally block says, which is carried out once, from there. -/
theorem executeAttempt_of_pendingEnd {evaluator : Evaluator} {scope : Scope} {body : Block}
    {catchBlock : Option Block} {state middle : State}
    (hmiddle : (evaluator.pendingEnd scope body catchBlock state).after? = some middle)
    (final : Block) :
    executeAttempt evaluator scope body catchBlock (some final) state =
      (evaluator.pendingEnd scope body catchBlock state).afterFinally
        (evaluator.outcome (.scoped scope final middle)) := by
  rw [executeAttempt_apply]
  simp only [Evaluator.afterPending, hmiddle]

/-- A catch block begins in a new scope inside that of the `try` statement, in which `error` alone
is bound, to the kind and the message of what is caught. Nothing else changes. -/
theorem handling_begins_fresh (scope : Scope) (block : Block) (interrupt : Interrupt)
    (state : State) : ∃ store,
      Visit.handling scope block interrupt state =
        ⟨.block { scope with here := state.store.next .scope, outer := scope.here :: scope.outer }
          block.statements, { state with store }⟩ ∧
      (store.get (state.store.next .scope)).entries =
        [("error", .error interrupt.asError.kind interrupt.asError.message)] ∧
      ∀ (kind : CellKind) (ref : Ref kind), ref.index < state.store.size kind →
        store.get ref = state.store.get ref := by
  refine ⟨_, rfl, ?_, ?_⟩
  · have hlt := state.store.next_lt_size_add .scope .empty
    change ((((state.store.add .scope .empty).modify (state.store.next .scope) _).get
      (state.store.next .scope)) : OrderedMap Value).entries = _
    rw [Store.get_modify_self hlt, Store.get_add_next]
    rfl
  · intro kind ref hlt
    have hne : kind = .scope → ref.index ≠ (state.store.next .scope).index := by
      rintro rfl
      exact Nat.ne_of_lt hlt
    exact (Store.get_modify_of_ne hne _).trans (Store.get_add_of_lt hlt _)

/-- The finally block of a `try` statement begins exactly where the body, and after an error of the
body the catch block, have ended, with the call stack of the statement; the visits of the statement
are these three. The catch block begins in a new scope with nothing but the error in it. Whatever
the pending end is, the statement ends with it, unless the finally block does not end normally;
then the statement ends with that. The blocks are carried out once each, by whatever evaluator. -/
theorem finally_begins_once_and_decides (host : Host) (steps : Nat) (scope : Scope)
    (body finallyBlock : Block) (catchBlock : Option Block) (inner span : Span) (state : State) :
    let evaluator := Evaluator.ofSteps host steps
    let statement : Statement := ⟨.attempt body catchBlock (some finallyBlock) inner, span⟩
    let bodyEnd : Result Signal := evaluator.outcome (.scoped scope body state)
    let pending : Result Signal := evaluator.pendingEnd scope body catchBlock state
    (∀ visit, Leads host steps ⟨.statement scope statement, state⟩ visit ↔
      visit = .scoped scope body state ∨
      (∃ error middle block, bodyEnd = .interrupted (.error error) middle ∧
        catchBlock = some block ∧ visit = .handling scope block (.error error) middle) ∨
      ∃ middle, pending.after? = some middle ∧ visit = .scoped scope finallyBlock middle) ∧
    ((∃ error middle block, bodyEnd = .interrupted (.error error) middle ∧
        catchBlock = some block ∧
        pending = evaluator.outcome (.handling scope block (.error error) middle)) ∨
      (¬ ∃ error middle block, bodyEnd = .interrupted (.error error) middle ∧
        catchBlock = some block) ∧ pending = bodyEnd) ∧
    (∀ error block middle, ∃ store,
      Visit.handling scope block (.error error) middle =
        ⟨.block { scope with here := middle.store.next .scope, outer := scope.here :: scope.outer }
          block.statements, { middle with store }⟩ ∧
      (store.get (middle.store.next .scope)).entries =
        [("error", .error error.kind error.message)] ∧
      ∀ (kind : CellKind) (ref : Ref kind), ref.index < middle.store.size kind →
        store.get ref = middle.store.get ref) ∧
    (∀ middle, pending.after? = some middle →
      middle.calls = state.calls ∧
      (∀ given after,
        evaluator.outcome (.scoped scope finallyBlock middle) = .value (.value given) after →
          executeStatement host evaluator scope statement state = pending.endingIn after) ∧
      ((∀ given after,
        evaluator.outcome (.scoped scope finallyBlock middle) ≠ .value (.value given) after) →
          executeStatement host evaluator scope statement state =
            evaluator.outcome (.scoped scope finallyBlock middle))) ∧
    (∀ (any : Evaluator) (middle : State),
      (any.pendingEnd scope body catchBlock state).after? = some middle →
        executeForm host any scope statement.form state =
          (any.pendingEnd scope body catchBlock state).afterFinally
            (any.outcome (.scoped scope finallyBlock middle))) := by
  intro evaluator statement bodyEnd pending
  refine ⟨?_, pendingEnd_cases host steps scope body catchBlock state, ?_, ?_, ?_⟩
  · exact leads_finally_iff host steps scope body catchBlock state finallyBlock inner span
  · intro error block middle
    exact handling_begins_fresh scope block (.error error) middle
  · intro middle hmiddle
    have hstatement : executeStatement host evaluator scope statement state =
        pending.afterFinally (evaluator.outcome (.scoped scope finallyBlock middle)) :=
      (executeStatement_attempt host steps scope body catchBlock (some finallyBlock) state inner
        span).trans (executeAttempt_of_pendingEnd hmiddle finallyBlock)
    refine ⟨pendingEnd_calls host steps scope body catchBlock state hmiddle, ?_, ?_⟩
    · intro given after hfinished
      rw [hstatement, hfinished]
      rfl
    · intro habrupt
      rw [hstatement, Result.afterFinally_of_abrupt habrupt]
  · intro any middle hmiddle
    exact executeAttempt_of_pendingEnd hmiddle finallyBlock

/-- Where the body fails and the catch block returns what was caught, the finally block begins after
the return. If it ends as usual the statement returns; if it fails, that is how the statement ends.
-/
theorem finally_after_caught_error_returned :
    let named (name : String) : Expression := ⟨.identifier name, default⟩
    let body : Block := ⟨[⟨.expression (named "missing"), default⟩], default⟩
    let handler : Block := ⟨[⟨.returning (some (named "error")), default⟩], default⟩
    let quiet : Block := ⟨[⟨.expression ⟨.nothing, default⟩, default⟩], default⟩
    let abrupt : Block := ⟨[⟨.expression (named "absent"), default⟩], default⟩
    let statement (final : Block) : Statement :=
      ⟨.attempt body (some handler) (some final) default, default⟩
    let host : Host := ⟨false, .fromMemory [], []⟩
    let main := Scope.ofMain .empty "main.kes"
    let state : State := ⟨main.2, .empty 2, .empty⟩
    let evaluator := Evaluator.ofSteps host 6
    ∃ error caught returned,
      Leads host 6 ⟨.statement main.1 (statement quiet), state⟩
        (.handling main.1 handler (.error error) caught) ∧
      Leads host 6 ⟨.statement main.1 (statement quiet), state⟩ (.scoped main.1 quiet returned) ∧
      returned.calls = state.calls ∧
      (∃ after, executeStatement host evaluator main.1 (statement quiet) state =
        .value (.returned (.error error.kind error.message)) after) ∧
      ∃ other after, executeStatement host evaluator main.1 (statement abrupt) state =
        .interrupted (.error other) after ∧ other.message ≠ error.message := by
  intro named body handler quiet abrupt statement host main state evaluator
  obtain ⟨error, caught, returned, ended, other, after, hbody, hhandler, hquiet, habrupt, hother⟩ :
      ∃ error caught returned ended other after,
        evaluator.outcome (.scoped main.1 body state) = .interrupted (.error error) caught ∧
        evaluator.outcome (.handling main.1 handler (.error error) caught) =
          .value (.returned (.error error.kind error.message)) returned ∧
        evaluator.outcome (.scoped main.1 quiet returned) = .value (.value .nothing) ended ∧
        evaluator.outcome (.scoped main.1 abrupt returned) = .interrupted (.error other) after ∧
        other.message ≠ error.message :=
    ⟨_, _, _, _, _, _, rfl, rfl, rfl, rfl, by decide⟩
  obtain ⟨hleads, hpending, -, hfinally, -⟩ := finally_begins_once_and_decides host 6 main.1 body
    quiet (some handler) default default state
  obtain ⟨-, -, -, habruptly, -⟩ := finally_begins_once_and_decides host 6 main.1 body abrupt
    (some handler) default default state
  have hreturns : evaluator.pendingEnd main.1 body (some handler) state =
      .value (.returned (.error error.kind error.message)) returned := by
    rcases hpending with ⟨error', caught', block, hbody', hblock, hend⟩ | ⟨huncaught, -⟩
    · cases hbody.symm.trans hbody'
      cases hblock
      exact hend.trans hhandler
    · exact absurd ⟨error, caught, handler, hbody, rfl⟩ huncaught
  have hreturned : (evaluator.pendingEnd main.1 body (some handler) state).after? =
      some returned := by
    rw [hreturns]
    rfl
  obtain ⟨hcalls, hends, -⟩ := hfinally returned hreturned
  obtain ⟨-, -, hreplaces⟩ := habruptly returned hreturned
  refine ⟨error, caught, returned, ?_, ?_, hcalls, ⟨ended, ?_⟩, other, after, ?_, hother⟩
  · exact (hleads _).mpr (.inr (.inl ⟨error, caught, handler, hbody, rfl, rfl⟩))
  · exact (hleads _).mpr (.inr (.inr ⟨returned, hreturned, rfl⟩))
  · rw [hends _ _ hquiet, hreturns]
    rfl
  · exact (hreplaces fun given final hend => nomatch habrupt.symm.trans hend).trans habrupt

end Kestrel
