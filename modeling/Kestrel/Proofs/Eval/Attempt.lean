import Kestrel.Proofs.Eval.Visit

/-!
# The phases of a `try` statement

A `try` statement leaves up to three blocks to the evaluator: its body, the catch block after a
body that was interrupted, and the finally block after both. This file says in which scope and state
each of them begins, and that the statement asks for nothing else.
-/

namespace Kestrel

/-- The same end in another state. -/
def Result.endingIn {α : Type} (result : Result α) (state : State) : Result α :=
  match result with
  | .value given _ => .value given state
  | .interrupted interrupt _ => .interrupted interrupt state
  | .halted reason => .halted reason

/-- How a statement with a finally block ends, by the pending end of what comes before and by the
end of the block: the block's own end counts unless it is normal. -/
def Result.afterFinally (pending finished : Result Signal) : Result Signal :=
  match finished with
  | .value (.value _) after => pending.endingIn after
  | other => other

/-- A finally block that does not end normally replaces the pending end. -/
theorem Result.afterFinally_of_abrupt {finished : Result Signal}
    (habrupt : ∀ given after, finished ≠ .value (.value given) after) (pending : Result Signal) :
    pending.afterFinally finished = finished := by
  cases finished with
  | interrupted interrupt after => rfl
  | halted reason => rfl
  | value signal after =>
    cases signal with
    | value given => exact absurd rfl (habrupt given after)
    | returned given => rfl
    | exit exit => rfl

/-- A statement whose pending end was reached is halted exactly if its finally block is. -/
theorem Result.afterFinally_eq_halted_iff {pending finished : Result Signal} {middle : State}
    {reason : Halt} (hmiddle : pending.after? = some middle) :
    pending.afterFinally finished = .halted reason ↔ finished = .halted reason := by
  cases finished with
  | interrupted interrupt final => rfl
  | halted other => rfl
  | value signal final =>
    cases signal with
    | returned given => rfl
    | exit exit => rfl
    | value given =>
      cases pending with
      | value signal after => simp [afterFinally, endingIn]
      | interrupted interrupt after => simp [afterFinally, endingIn]
      | halted other => cases hmiddle

/-- A statement whose pending end was reached ends in the state in which its finally block ends. -/
theorem Result.after?_afterFinally {pending : Result Signal} {middle : State}
    (hmiddle : pending.after? = some middle) (finished : Result Signal) :
    (pending.afterFinally finished).after? = finished.after? := by
  cases finished with
  | interrupted interrupt final => rfl
  | halted other => rfl
  | value signal final =>
    cases signal with
    | returned given => rfl
    | exit exit => rfl
    | value given =>
      cases pending with
      | value signal after => rfl
      | interrupted interrupt after => rfl
      | halted other => cases hmiddle

/-- The visit of a block in a new scope. -/
def Visit.scoped (scope : Scope) (block : Block) (state : State) : Visit :=
  ⟨.block (scope.child state.store).1 block.statements,
    { state with store := (scope.child state.store).2 }⟩

/-- The visit of a catch block: a new scope, in which `error` has the kind and the message of what
is caught. -/
def Visit.handling (scope : Scope) (block : Block) (interrupt : Interrupt) (state : State) :
    Visit :=
  ⟨.block (scope.child state.store).1 block.statements,
    { state with
      store := (scope.child state.store).1.bind (scope.child state.store).2 "error"
        (.error interrupt.asError.kind interrupt.asError.message) }⟩

/-- A block in a new scope is one visit of the evaluator. -/
theorem executeScoped_apply (evaluator : Evaluator) (scope : Scope) (block : Block)
    (state : State) : executeScoped evaluator scope block state =
      evaluator.outcome (.scoped scope block state) := rfl

namespace Evaluator

/-- How a body with its catch block ends, by the end of the body. -/
def afterBody (evaluator : Evaluator) (scope : Scope) (catchBlock : Option Block)
    (bodyEnd : Result Signal) : Result Signal :=
  match bodyEnd, catchBlock with
  | .interrupted interrupt middle, some block =>
    evaluator.outcome (.handling scope block interrupt middle)
  | other, _ => other

/-- How a statement with its finally block ends, by the pending end. -/
def afterPending (evaluator : Evaluator) (scope : Scope) (finallyBlock : Option Block)
    (pending : Result Signal) : Result Signal :=
  match finallyBlock, pending.after? with
  | some block, some middle => pending.afterFinally (evaluator.outcome (.scoped scope block middle))
  | _, _ => pending

/-- Without an interrupt or without a catch block, the end of the body stays. -/
theorem afterBody_of_not_caught (evaluator : Evaluator) (scope : Scope)
    {catchBlock : Option Block} {bodyEnd : Result Signal}
    (hcaught : ¬ ∃ interrupt middle block, bodyEnd = .interrupted interrupt middle ∧
      catchBlock = some block) : evaluator.afterBody scope catchBlock bodyEnd = bodyEnd := by
  cases bodyEnd with
  | value signal middle => rfl
  | halted reason => rfl
  | interrupted interrupt middle =>
    cases catchBlock with
    | none => rfl
    | some block => exact absurd ⟨interrupt, middle, block, rfl, rfl⟩ hcaught

/-- Something halted is not followed by a finally block. -/
theorem afterPending_halted (evaluator : Evaluator) (scope : Scope) (finallyBlock : Option Block)
    {reason : Halt} : evaluator.afterPending scope finallyBlock (.halted reason) =
      .halted reason := by
  cases finallyBlock <;> rfl

/-- The catch block depends on the body through the body's end alone. -/
theorem catchError_apply (evaluator : Evaluator) (scope : Scope) (catchBlock : Option Block)
    (body : Eval Signal) (state : State) : catchError evaluator scope catchBlock body state =
      evaluator.afterBody scope catchBlock (body state) := by
  unfold catchError afterBody
  cases body state with
  | value signal middle => rfl
  | interrupted interrupt middle => cases catchBlock <;> rfl
  | halted reason => rfl

/-- The finally block depends on what comes before it through the pending end alone. -/
theorem finallyDo_apply (evaluator : Evaluator) (scope : Scope) (finallyBlock : Option Block)
    (body : Eval Signal) (state : State) : finallyDo evaluator scope finallyBlock body state =
      evaluator.afterPending scope finallyBlock (body state) := by
  unfold finallyDo afterPending
  cases finallyBlock with
  | none => rfl
  | some block =>
    cases body state with
    | value signal middle =>
      simp only [Result.after?, ← executeScoped_apply]
      cases executeScoped evaluator scope block middle with
      | value finished final => cases finished <;> rfl
      | interrupted interrupt final => rfl
      | halted reason => rfl
    | interrupted pending middle =>
      simp only [Result.after?, ← executeScoped_apply]
      cases executeScoped evaluator scope block middle with
      | value finished final => cases finished <;> rfl
      | interrupted interrupt final => rfl
      | halted reason => rfl
    | halted reason => rfl

/-- How the body of a `try` statement and its catch block end. -/
def pendingEnd (evaluator : Evaluator) (scope : Scope) (body : Block) (catchBlock : Option Block)
    (state : State) : Result Signal :=
  evaluator.afterBody scope catchBlock (evaluator.outcome (.scoped scope body state))

end Evaluator

/-- A `try` statement is its body, its catch block and its finally block, each from the end of the
one before. -/
theorem executeAttempt_apply (evaluator : Evaluator) (scope : Scope) (body : Block)
    (catchBlock finallyBlock : Option Block) (state : State) :
    executeAttempt evaluator scope body catchBlock finallyBlock state =
      evaluator.afterPending scope finallyBlock
        (evaluator.pendingEnd scope body catchBlock state) := by
  unfold executeAttempt Evaluator.pendingEnd
  rw [Evaluator.finallyDo_apply, Evaluator.catchError_apply, executeScoped_apply]

section Asks

variable {evaluator : Evaluator} {state : State} {visit : Visit}

/-- A block in a new scope asks for a visit or ignores it. -/
theorem asks_or_ignores_scoped (scope : Scope) (block : Block) :
    Asks (fun e start => e.outcome (.scoped scope block start)) evaluator state visit ∨
      Ignores (fun e start => e.outcome (.scoped scope block start)) evaluator state visit :=
  halted_or_unchanged_outcome evaluator visit (.scoped scope block state)

/-- After the body, the catch block is the only visit that can be asked for. -/
theorem halted_afterBody_iff {scope : Scope} {catchBlock : Option Block}
    {bodyEnd : Result Signal} :
    (∀ reason, (evaluator.haltedAt visit reason).afterBody scope catchBlock bodyEnd =
        .halted reason) ↔
      ∃ interrupt middle block, bodyEnd = .interrupted interrupt middle ∧
        catchBlock = some block ∧ visit = .handling scope block interrupt middle := by
  constructor
  · intro hhalted
    have hstays : (∀ e : Evaluator, e.afterBody scope catchBlock bodyEnd = bodyEnd) → False :=
      fun hstays => bodyEnd.not_halted_always fun reason => (hstays _).symm.trans (hhalted reason)
    cases bodyEnd with
    | value signal middle => exact (hstays fun _ => rfl).elim
    | halted reason => exact (hstays fun _ => rfl).elim
    | interrupted interrupt middle =>
      cases catchBlock with
      | none => exact (hstays fun _ => rfl).elim
      | some block => exact ⟨interrupt, middle, block, rfl, rfl, halted_outcome_iff.mp hhalted⟩
  · rintro ⟨interrupt, middle, block, rfl, rfl, hvisit⟩
    exact fun reason => halted_outcome_iff.mpr hvisit reason

/-- Halting a visit halts what follows the body or makes no difference to it. -/
theorem halted_or_unchanged_afterBody (scope : Scope) (catchBlock : Option Block)
    (bodyEnd : Result Signal) :
    (∀ reason, (evaluator.haltedAt visit reason).afterBody scope catchBlock bodyEnd =
        .halted reason) ∨
      ∀ reason, (evaluator.haltedAt visit reason).afterBody scope catchBlock bodyEnd =
        evaluator.afterBody scope catchBlock bodyEnd := by
  cases bodyEnd with
  | value signal middle => exact .inr fun _ => rfl
  | halted reason => exact .inr fun _ => rfl
  | interrupted interrupt middle =>
    cases catchBlock with
    | none => exact .inr fun _ => rfl
    | some block =>
      exact halted_or_unchanged_outcome evaluator visit (.handling scope block interrupt middle)

/-- Before the finally block, a `try` statement asks for its body, and for its catch block where
the body was interrupted. -/
theorem asks_pendingEnd_iff {scope : Scope} {body : Block} {catchBlock : Option Block} :
    Asks (fun e start => e.pendingEnd scope body catchBlock start) evaluator state visit ↔
      visit = .scoped scope body state ∨ ∃ interrupt middle block,
        evaluator.outcome (.scoped scope body state) = .interrupted interrupt middle ∧
          catchBlock = some block ∧ visit = .handling scope block interrupt middle :=
  (@asks_continuation_iff _ _ (fun e start => e.outcome (.scoped scope body start))
    (fun e bodyEnd => e.afterBody scope catchBlock bodyEnd) evaluator state visit
    (asks_or_ignores_scoped scope body) fun _ _ => rfl).trans
    (or_congr halted_outcome_iff halted_afterBody_iff)

/-- A body with its catch block asks for a visit or ignores it. -/
theorem asks_or_ignores_pendingEnd (scope : Scope) (body : Block) (catchBlock : Option Block) :
    Asks (fun e start => e.pendingEnd scope body catchBlock start) evaluator state visit ∨
      Ignores (fun e start => e.pendingEnd scope body catchBlock start) evaluator state visit :=
  @asks_or_ignores_continuation _ _ (fun e start => e.outcome (.scoped scope body start))
    (fun e bodyEnd => e.afterBody scope catchBlock bodyEnd) evaluator state visit
    (asks_or_ignores_scoped scope body) (fun _ _ => rfl)
    (halted_or_unchanged_afterBody scope catchBlock _)

/-- After the pending end, the finally block is the only visit that can be asked for. -/
theorem halted_afterPending_iff {scope : Scope} {finallyBlock : Option Block}
    {pending : Result Signal} :
    (∀ reason, (evaluator.haltedAt visit reason).afterPending scope finallyBlock pending =
        .halted reason) ↔
      ∃ middle block, pending.after? = some middle ∧ finallyBlock = some block ∧
        visit = .scoped scope block middle := by
  cases finallyBlock with
  | none => simpa [Evaluator.afterPending] using pending.not_halted_always
  | some block =>
    cases hmiddle : pending.after? with
    | none => simpa [Evaluator.afterPending, hmiddle] using pending.not_halted_always
    | some middle =>
      simp only [Evaluator.afterPending, hmiddle]
      refine (forall_congr' fun _ => Result.afterFinally_eq_halted_iff hmiddle).trans
        (halted_outcome_iff.trans ?_)
      constructor
      · exact fun hvisit => ⟨middle, block, rfl, rfl, hvisit⟩
      · rintro ⟨_, _, ⟨⟩, ⟨⟩, hvisit⟩
        exact hvisit

/-- Halting a visit halts what follows the pending end or makes no difference to it. -/
theorem halted_or_unchanged_afterPending (scope : Scope) (finallyBlock : Option Block)
    (pending : Result Signal) :
    (∀ reason, (evaluator.haltedAt visit reason).afterPending scope finallyBlock pending =
        .halted reason) ∨
      ∀ reason, (evaluator.haltedAt visit reason).afterPending scope finallyBlock pending =
        evaluator.afterPending scope finallyBlock pending := by
  cases finallyBlock with
  | none => exact .inr fun _ => rfl
  | some block =>
    cases hmiddle : pending.after? with
    | none => simp [Evaluator.afterPending, hmiddle]
    | some middle =>
      simp only [Evaluator.afterPending, hmiddle]
      rcases halted_or_unchanged_outcome evaluator visit (.scoped scope block middle) with
        hhalted | hunchanged
      · exact .inl fun reason => (Result.afterFinally_eq_halted_iff hmiddle).mpr (hhalted reason)
      · exact .inr fun reason => congrArg pending.afterFinally (hunchanged reason)

/-- A `try` statement asks for its body, for its catch block where the body was interrupted, and
for its finally block where the pending end was reached; and for nothing else. -/
theorem asks_executeAttempt_iff {scope : Scope} {body : Block}
    {catchBlock finallyBlock : Option Block} :
    Asks (fun e => executeAttempt e scope body catchBlock finallyBlock) evaluator state visit ↔
      (visit = .scoped scope body state ∨ ∃ interrupt middle block,
        evaluator.outcome (.scoped scope body state) = .interrupted interrupt middle ∧
          catchBlock = some block ∧ visit = .handling scope block interrupt middle) ∨
      ∃ middle block,
        (evaluator.pendingEnd scope body catchBlock state).after? = some middle ∧
          finallyBlock = some block ∧ visit = .scoped scope block middle := by
  simp only [Asks, executeAttempt_apply]
  exact (@asks_continuation_iff _ _ (fun e start => e.pendingEnd scope body catchBlock start)
    (fun e pending => e.afterPending scope finallyBlock pending) evaluator state visit
    (asks_or_ignores_pendingEnd scope body catchBlock)
    fun e _ => e.afterPending_halted scope finallyBlock).trans
    (or_congr asks_pendingEnd_iff halted_afterPending_iff)

/-- A `try` statement asks for blocks only. -/
theorem exists_block_of_asks_executeAttempt {scope : Scope} {body : Block}
    {catchBlock finallyBlock : Option Block}
    (hasks : Asks (fun e => executeAttempt e scope body catchBlock finallyBlock) evaluator state
      visit) : ∃ inner parts start, visit = ⟨.block inner parts, start⟩ := by
  rcases asks_executeAttempt_iff.mp hasks with
    (hvisit | ⟨_, _, _, _, _, hvisit⟩) | ⟨_, _, _, _, hvisit⟩ <;> exact ⟨_, _, _, hvisit⟩

/-- A `try` statement asks for a visit or ignores it. -/
theorem asks_or_ignores_executeAttempt (scope : Scope) (body : Block)
    (catchBlock finallyBlock : Option Block) :
    Asks (fun e => executeAttempt e scope body catchBlock finallyBlock) evaluator state visit ∨
      Ignores (fun e => executeAttempt e scope body catchBlock finallyBlock) evaluator state
        visit := by
  simp only [Asks, Ignores, executeAttempt_apply]
  exact @asks_or_ignores_continuation _ _
    (fun e start => e.pendingEnd scope body catchBlock start)
    (fun e pending => e.afterPending scope finallyBlock pending) evaluator state visit
    (asks_or_ignores_pendingEnd scope body catchBlock)
    (fun e _ => e.afterPending_halted scope finallyBlock)
    (halted_or_unchanged_afterPending scope finallyBlock _)

/-- What interrupts a statement with a finally block is pending or interrupts that block. -/
theorem Result.afterFinally_eq_interrupted {pending finished : Result Signal}
    {interrupt : Interrupt} {after : State}
    (hinterrupted : pending.afterFinally finished = .interrupted interrupt after) :
    (∃ middle, pending = .interrupted interrupt middle) ∨
      finished = .interrupted interrupt after := by
  cases finished with
  | interrupted other final => exact .inr hinterrupted
  | halted reason => cases hinterrupted
  | value signal final =>
    cases signal with
    | returned given => cases hinterrupted
    | exit exit => cases hinterrupted
    | value given =>
      cases pending with
      | value signal middle => cases hinterrupted
      | interrupted other middle =>
        cases hinterrupted
        exact .inl ⟨middle, rfl⟩
      | halted reason => cases hinterrupted

/-- What interrupts a `try` statement before its finally block interrupts its body or its catch
block. -/
theorem pendingEnd_interrupted {scope : Scope} {body : Block} {catchBlock : Option Block}
    {interrupt : Interrupt} {after : State}
    (hinterrupted : evaluator.pendingEnd scope body catchBlock state =
      .interrupted interrupt after) : ∃ visit,
      Asks (fun e start => e.pendingEnd scope body catchBlock start) evaluator state visit ∧
        evaluator.Interrupted visit interrupt := by
  by_cases hcaught : ∃ caught middle block,
      evaluator.outcome (.scoped scope body state) = .interrupted caught middle ∧
        catchBlock = some block
  · obtain ⟨caught, middle, block, hend, rfl⟩ := hcaught
    refine ⟨.handling scope block caught middle, ?_, after, ?_⟩
    · exact asks_pendingEnd_iff.mpr (.inr ⟨caught, middle, block, hend, rfl, rfl⟩)
    · unfold Evaluator.pendingEnd at hinterrupted
      rw [hend] at hinterrupted
      exact hinterrupted
  · unfold Evaluator.pendingEnd at hinterrupted
    rw [Evaluator.afterBody_of_not_caught _ _ hcaught] at hinterrupted
    exact ⟨.scoped scope body state, asks_pendingEnd_iff.mpr (.inl rfl), after, hinterrupted⟩

/-- What interrupts a `try` statement interrupts one of its blocks. -/
theorem executeAttempt_interrupted {scope : Scope} {body : Block}
    {catchBlock finallyBlock : Option Block} {interrupt : Interrupt} {after : State}
    (hinterrupted : executeAttempt evaluator scope body catchBlock finallyBlock state =
      .interrupted interrupt after) : ∃ visit,
      Asks (fun e => executeAttempt e scope body catchBlock finallyBlock) evaluator state visit ∧
        evaluator.Interrupted visit interrupt := by
  rw [executeAttempt_apply] at hinterrupted
  have hpending {middle : State} (hend : evaluator.pendingEnd scope body catchBlock state =
      .interrupted interrupt middle) : ∃ visit,
      Asks (fun e => executeAttempt e scope body catchBlock finallyBlock) evaluator state visit ∧
        evaluator.Interrupted visit interrupt := by
    obtain ⟨visit, hasks, hvisit⟩ := pendingEnd_interrupted hend
    exact ⟨visit, asks_executeAttempt_iff.mpr (.inl (asks_pendingEnd_iff.mp hasks)), hvisit⟩
  cases finallyBlock with
  | none => exact hpending hinterrupted
  | some block =>
    cases hmiddle : (evaluator.pendingEnd scope body catchBlock state).after? with
    | none =>
      simp only [Evaluator.afterPending, hmiddle] at hinterrupted
      exact hpending hinterrupted
    | some middle =>
      simp only [Evaluator.afterPending, hmiddle] at hinterrupted
      rcases Result.afterFinally_eq_interrupted hinterrupted with ⟨final, hend⟩ | hfinished
      · exact hpending hend
      · refine ⟨.scoped scope block middle, ?_, after, hfinished⟩
        exact asks_executeAttempt_iff.mpr (.inr ⟨middle, block, hmiddle, rfl, rfl⟩)

end Asks

end Kestrel
