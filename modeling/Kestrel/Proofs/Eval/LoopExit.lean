import Kestrel.Proofs.Eval.Course

/-!
# Loop exits

A `break` or `continue` with no loop around it in its function leaves the call as an interrupt, and
the statement around the call turns it into a signal again. This file follows a loop exit outwards:
through the expressions, statements and blocks that it leaves, past the finally blocks on its way,
and up to a loop around the call, to the end of a program or to an import. No `try` statement takes
it for an error.
-/

namespace Kestrel

/-- No loop exit interrupts a result. -/
def Result.Confined {α : Type} (result : Result α) : Prop :=
  ∀ exit after, result ≠ .interrupted (.loopExit exit) after

/-- A value is not interrupted. -/
theorem Result.confined_value {α : Type} (value : α) (after : State) :
    (Result.value value after).Confined := by
  intro exit final hinterrupted
  cases hinterrupted

/-- What was halted is not interrupted. -/
theorem Result.confined_halted {α : Type} (reason : Halt) :
    (Result.halted reason : Result α).Confined := by
  intro exit final hinterrupted
  cases hinterrupted

/-- The end of a statement is not a loop exit on its way. -/
theorem Result.confined_settled (scope : Scope) (line : Nat) (result : Result Signal) :
    (result.settled scope line).Confined := by
  cases result with
  | value signal middle => exact confined_value signal middle
  | halted reason => exact confined_halted reason
  | interrupted interrupt middle =>
    intro exit after hinterrupted
    cases interrupt <;> cases hinterrupted

/-- No loop exit interrupts two computations in a row if none interrupts one of them. -/
theorem Result.Confined.bind {α β : Type} {first : Eval α} {next : α → Eval β} {state : State}
    (hfirst : (first state).Confined) (hnext : ∀ value after, (next value after).Confined) :
    ((first >>= next) state).Confined := by
  rw [Eval.bind_apply]
  cases hend : first state with
  | value value after => exact hnext value after
  | halted reason => exact confined_halted reason
  | interrupted interrupt after =>
    rw [hend] at hfirst
    intro exit final hinterrupted
    cases hinterrupted
    exact hfirst exit after rfl

/-- No loop exit interrupts several statements in a row if none interrupts a statement. -/
theorem executeRow_confined {evaluator : Evaluator}
    (hstatements : ∀ scope statement state, (evaluator.statement scope statement state).Confined)
    (scope : Scope) (last : Value) (statements : List Statement) (state : State) :
    (executeRow evaluator scope last statements state).Confined := by
  induction statements generalizing last state with
  | nil => exact Result.confined_value _ _
  | cons statement others ih =>
    refine (hstatements scope statement state).bind fun signal after => ?_
    cases signal with
    | value given => exact ih given after
    | returned given => exact Result.confined_value _ _
    | exit exit => exact Result.confined_value _ _

/-- No loop exit interrupts a statement of an evaluator. -/
theorem Evaluator.confined_statement (host : Host) (steps : Nat) (scope : Scope)
    (statement : Statement) (state : State) :
    ((ofSteps host steps).statement scope statement state).Confined := by
  cases steps with
  | zero => exact Result.confined_halted _
  | succ steps =>
    change (executeStatement host (ofSteps host steps) scope statement state).Confined
    rw [executeStatement_apply]
    exact Result.confined_settled _ _ _

/-- No loop exit interrupts a block. -/
theorem executeBlock_confined (host : Host) (steps : Nat) (scope : Scope)
    (statements : List Statement) (state : State) :
    (executeBlock (.ofSteps host steps) scope statements state).Confined :=
  executeRow_confined (Evaluator.confined_statement host steps) scope .nothing statements state

/-- No loop exit interrupts a block of an evaluator. -/
theorem Evaluator.confined_block (host : Host) (steps : Nat) (scope : Scope)
    (statements : List Statement) (state : State) :
    ((ofSteps host steps).block scope statements state).Confined := by
  cases steps with
  | zero => exact Result.confined_halted _
  | succ steps => exact executeBlock_confined host steps scope statements state

/-- No loop exit interrupts a program. -/
theorem executeProgram_confined (host : Host) (steps : Nat) (scope : Scope)
    (statements : List Statement) (state : State) :
    (executeProgram (.ofSteps host steps) scope statements state).Confined := by
  refine (Evaluator.confined_block host steps scope statements state).bind fun signal after => ?_
  cases signal with
  | value given => exact Result.confined_value _ _
  | returned given => exact Result.confined_value _ _
  | exit exit =>
    intro other final hinterrupted
    cases hinterrupted

/-- How a task ends that a loop exit leaves: an expression is interrupted by it, and a statement or
a block ends with it as its signal. -/
def Task.exitEnd : (task : Task) → LoopExit → State → Result task.Outcome
  | .expression _ _, exit, after => .interrupted (.loopExit exit) after
  | .statement _ _, exit, after => .value (.exit exit) after
  | .block _ _, exit, after => .value (.exit exit) after

/-- A loop exit leaves a visit, in some state. -/
def Evaluator.LetsOut (evaluator : Evaluator) (exit : LoopExit) (visit : Visit) (after : State) :
    Prop :=
  evaluator.outcome visit = visit.task.exitEnd exit after

section Links

variable {host : Host} {evaluator : Evaluator} {exit : LoopExit} {state start after : State}
  {scope inner : Scope}

/-- What interrupts an expression interrupts the expression or the statement around it. -/
theorem Composed.interrupted_of_expression {layer : Layer} {α : Type} {construct : Construct α}
    (hcomposed : Composed layer construct) {part : Expression} {interrupt : Interrupt}
    (hasks : Asks construct evaluator state ⟨.expression inner part, start⟩)
    (hinner : evaluator.expression inner part start = .interrupted interrupt after) :
    construct evaluator state = .interrupted interrupt after := by
  obtain ⟨β, query, middle, hquery, hasks, hinterrupted⟩ := hcomposed.exists_query hasks
  apply hinterrupted
  cases hquery with
  | task hcontains =>
    cases asks_perform_iff.mp hasks
    exact hinner
  | call ref arguments module line =>
    obtain ⟨_, _, _, hvisit⟩ := exists_block_of_asks_callFunction hasks
    cases hvisit
  | attempt scope body catchBlock finallyBlock =>
    obtain ⟨_, _, _, hvisit⟩ := exists_block_of_asks_executeAttempt hasks
    cases hvisit

/-- A loop exit that leaves the body of a called function interrupts the expression around the call,
with the call left. -/
theorem Composed.interrupted_of_body {α : Type} {construct : Construct α}
    (hcomposed : Composed .expression construct) {parts : List Statement}
    (hasks : Asks construct evaluator state ⟨.block inner parts, start⟩)
    (hinner : evaluator.block inner parts start = .value (.exit exit) after) :
    construct evaluator state = .interrupted (.loopExit exit) after.leaveCall := by
  obtain ⟨β, query, middle, hquery, hasks, hinterrupted⟩ := hcomposed.exists_query hasks
  apply hinterrupted
  cases hquery with
  | task hcontains =>
    cases asks_perform_iff.mp hasks
    exact hcontains.elim
  | call ref arguments module line =>
    obtain ⟨called, ready, hscope, _⟩ := callScope_eq_value (middle.store.get ref) arguments middle
    obtain ⟨calls, hpush, hvisit⟩ := (asks_callFunction_iff hscope).mp hasks
    cases hvisit
    have hcall := callFunction_apply evaluator module line hscope
    rw [hpush] at hcall
    exact hcall.trans (congrArg Result.leaveCall hinner)

/-- Several statements in a row end with a loop exit that leaves one of them. -/
theorem executeRow_of_exit {last : Value} {statements : List Statement} {part : Statement}
    (hasks : Asks (fun e => executeRow e scope last statements) evaluator state
      ⟨.statement inner part, start⟩)
    (hinner : evaluator.statement inner part start = .value (.exit exit) after) :
    executeRow evaluator scope last statements state = .value (.exit exit) after := by
  induction statements generalizing last state with
  | nil => exact absurd hasks (ignores_const _ _ _ _).not_asks
  | cons statement others ih =>
    have hstatement : Composed .block fun e => e.perform (.statement scope statement) :=
      .task trivial
    simp only [executeRow, Eval.bind_apply]
    rcases hstatement.asks_bind_iff.mp hasks with hasks | ⟨signal, middle, hend, hasks⟩
    · cases asks_perform_iff.mp hasks
      rw [hinner]
      rfl
    · have hend : evaluator.statement scope statement state = .value signal middle := hend
      rw [hend]
      cases signal with
      | value given => exact ih hasks
      | returned given => exact absurd hasks (ignores_const _ _ _ _).not_asks
      | exit other => exact absurd hasks (ignores_const _ _ _ _).not_asks

/-- A block in a new scope asks for that block alone. -/
theorem asks_executeScoped_iff {block : Block} {visit : Visit} :
    Asks (fun e => executeScoped e scope block) evaluator state visit ↔
      visit = .scoped scope block state := by
  simp only [Asks, executeScoped_apply]
  exact halted_outcome_iff

/-- The branches of an `if` end as the block that they ask for. -/
theorem executeBranches_of_block {otherwise : Option Block} {branches : List Branch}
    {parts : List Statement}
    (hasks : Asks (fun e => executeBranches e scope otherwise branches) evaluator state
      ⟨.block inner parts, start⟩) :
    executeBranches evaluator scope otherwise branches state =
      evaluator.block inner parts start := by
  induction branches generalizing state with
  | nil =>
    cases otherwise with
    | none => exact absurd hasks (ignores_const _ _ _ _).not_asks
    | some block =>
      cases asks_executeScoped_iff.mp hasks
      exact executeScoped_apply _ _ _ _
  | cons branch others ih =>
    obtain ⟨given, middle, hcondition, hasks⟩ := asks_block_after_expression hasks
    obtain ⟨truth, middle, htruth, hasks⟩ := asks_after_const hasks
    refine (Eval.bind_of_value hcondition _).trans ((Eval.bind_of_value htruth _).trans ?_)
    cases truth with
    | true =>
      cases asks_executeScoped_iff.mp hasks
      exact executeScoped_apply _ _ _ _
    | false => exact ih hasks

/-- A loop ends with a `break` that left its body, and the next round follows a `continue`. -/
def LoopExit.endRound (next : Eval Signal) (after : State) : LoopExit → Result Signal
  | breaking => .value (.value .nothing) after
  | continuing => next after

/-- What follows a round of a loop, by its signal. -/
def Signal.thenRound (next : Eval Signal) : Signal → Eval Signal
  | .value _ => next
  | .returned given => pure (.returned given)
  | .exit other => other.endRound next

/-- Where something is asked for after a round, the next round follows. -/
theorem asks_thenRound {next : Construct Signal} {signal : Signal} {visit : Visit}
    (hasks : Asks (fun e => signal.thenRound (next e)) evaluator state visit) :
    Asks next evaluator state visit ∧ signal.thenRound (next evaluator) = next evaluator := by
  cases signal with
  | value given => exact ⟨hasks, rfl⟩
  | returned given => exact absurd hasks (ignores_const _ _ _ _).not_asks
  | exit other =>
    cases other with
    | breaking => exact absurd hasks (ignores_const _ _ _ _).not_asks
    | continuing => exact ⟨hasks, rfl⟩

/-- One more round of a loop. -/
theorem executeLoop_succ (evaluator : Evaluator) (scope : Scope) (body : Block) (rounds : Nat) :
    executeLoop evaluator scope body (rounds + 1) =
      executeScoped evaluator scope body >>=
        Signal.thenRound (executeLoop evaluator scope body rounds) := by
  rw [executeLoop]
  congr 1
  funext signal
  cases signal with
  | value given => rfl
  | returned given => rfl
  | exit other => cases other <;> rfl

/-- One more entry of a loop. -/
theorem executeRounds_cons (evaluator : Evaluator) (scope : Scope) (index : Option Identifier)
    (item : Identifier) (body : Block) (entry : Value × Value) (others : List (Value × Value)) :
    executeRounds evaluator scope index item body (entry :: others) =
      iterationScope scope index item entry >>= fun inner =>
        evaluator.block inner body.statements >>=
          Signal.thenRound (executeRounds evaluator scope index item body others) := by
  rw [executeRounds]
  congr 1
  funext inner
  congr 1
  funext signal
  cases signal with
  | value given => rfl
  | returned given => rfl
  | exit other => cases other <;> rfl

/-- A loop ends with a loop exit that leaves its body, or begins its next round. -/
theorem executeLoop_of_exit {body : Block} {rounds : Nat} {parts : List Statement}
    (hasks : Asks (fun e => executeLoop e scope body rounds) evaluator state
      ⟨.block inner parts, start⟩)
    (hinner : evaluator.block inner parts start = .value (.exit exit) after) :
    ∃ left < rounds, executeLoop evaluator scope body rounds state =
      exit.endRound (executeLoop evaluator scope body left) after := by
  induction rounds generalizing state with
  | zero => exact absurd hasks (ignores_const _ _ _ _).not_asks
  | succ rounds ih =>
    simp only [executeLoop_succ] at hasks ⊢
    rcases (Composed.executeScoped scope body).asks_bind_iff.mp hasks with
      hasks | ⟨signal, middle, hsignal, hasks⟩
    · cases asks_executeScoped_iff.mp hasks
      have hround : executeScoped evaluator scope body state = .value (.exit exit) after := hinner
      exact ⟨rounds, by omega, Eval.bind_of_value hround _⟩
    · obtain ⟨hasks, hnext⟩ := asks_thenRound hasks
      obtain ⟨left, hleft, hend⟩ := ih hasks
      refine ⟨left, by omega, ?_⟩
      rw [Eval.bind_of_value hsignal, hnext, hend]

/-- A loop over entries ends with a loop exit that leaves its body, or goes on to its next entry. -/
theorem executeRounds_of_exit {index : Option Identifier} {item : Identifier} {body : Block}
    {entries : List (Value × Value)} {parts : List Statement}
    (hasks : Asks (fun e => executeRounds e scope index item body entries) evaluator state
      ⟨.block inner parts, start⟩)
    (hinner : evaluator.block inner parts start = .value (.exit exit) after) :
    ∃ entry others, entry :: others <:+ entries ∧
      executeRounds evaluator scope index item body entries state =
        exit.endRound (executeRounds evaluator scope index item body others) after := by
  induction entries generalizing state with
  | nil => exact absurd hasks (ignores_const _ _ _ _).not_asks
  | cons entry others ih =>
    simp only [executeRounds_cons] at hasks ⊢
    obtain ⟨made, ready, hmade, hasks⟩ := asks_after_const hasks
    rw [Eval.bind_of_value hmade]
    rcases (Composed.block made body.statements).asks_bind_iff.mp hasks with
      hasks | ⟨signal, middle, hsignal, hasks⟩
    · cases (@asks_perform_iff (.block made body.statements) _ _ _).mp hasks
      exact ⟨entry, others, List.suffix_rfl, Eval.bind_of_value hinner _⟩
    · obtain ⟨hasks, hnext⟩ := asks_thenRound hasks
      obtain ⟨last, left, hleft, hend⟩ := ih hasks
      refine ⟨last, left, hleft.trans (List.suffix_cons _ _), ?_⟩
      rw [Eval.bind_of_value hsignal, hnext, hend]

/-- A program fails with a loop exit that leaves its block. -/
theorem executeProgram_of_exit {statements : List Statement}
    (hinner : evaluator.block scope statements state = .value (.exit exit) after) :
    executeProgram evaluator scope statements state =
      .interrupted (.error (.ofCause (.loopExitOutside exit))) after :=
  Eval.bind_of_value hinner _

/-- An import fails with a loop exit that leaves the program of the module. -/
theorem executeImport_of_exit {declaration : ImportDeclaration} {parts : List Statement}
    (hasks : Asks (fun e => executeImport host e scope declaration) evaluator state
      ⟨.block inner parts, start⟩)
    (hinner : evaluator.block inner parts start = .value (.exit exit) after) :
    executeImport host evaluator scope declaration state =
      .interrupted (.error (.ofCause (.loopExitOutside exit))) after := by
  unfold executeImport at hasks ⊢
  cases hlibrary : host.libraries.find? fun library => library.name = declaration.path with
  | some library =>
    simp only [hlibrary] at hasks
    exact absurd hasks (ignores_const _ _ _ _).not_asks
  | none =>
    simp only [hlibrary, importModule] at hasks ⊢
    obtain ⟨source, loaded, hloaded, hasks⟩ := asks_after_const hasks
    obtain ⟨_, noted, hnoted, hasks⟩ := asks_after_const hasks
    rw [Eval.bind_of_value hloaded, Eval.bind_of_value hnoted]
    cases hprogram : parseProgram source.source (some source.key) with
    | error error =>
      simp only [hprogram] at hasks
      exact absurd hasks (ignores_const _ _ _ _).not_asks
    | ok program =>
      simp only [hprogram] at hasks ⊢
      obtain ⟨made, ready, hmade, hasks⟩ := asks_after_const hasks
      rw [Eval.bind_of_value hmade]
      rcases (Composed.executeProgram made program.statements).asks_bind_iff.mp hasks with
        hasks | ⟨_, _, _, hasks⟩
      · cases asks_executeProgram_iff.mp hasks
        exact Eval.bind_of_interrupted (executeProgram_of_exit hinner) _
      · exact absurd hasks (ignores_const _ _ _ _).not_asks

/-- A loop exit that leaves a block of a `try` statement is its pending end, unless the block is the
finally block. -/
theorem executeAttempt_of_exit {body : Block} {catchBlock finallyBlock : Option Block}
    {visit : Visit}
    (hasks : Asks (fun e => executeAttempt e scope body catchBlock finallyBlock) evaluator state
      visit) (hout : evaluator.LetsOut exit visit after) :
    executeAttempt evaluator scope body catchBlock finallyBlock state = .value (.exit exit) after ∨
      evaluator.pendingEnd scope body catchBlock state = .value (.exit exit) after := by
  rcases asks_executeAttempt_iff.mp hasks with
    (rfl | ⟨interrupt, middle, block, hend, rfl, rfl⟩) | ⟨middle, block, hmiddle, rfl, rfl⟩
  · right
    have hbody : evaluator.outcome (.scoped scope body state) = .value (.exit exit) after := hout
    unfold Evaluator.pendingEnd
    rw [hbody]
    rfl
  · right
    unfold Evaluator.pendingEnd
    rw [hend]
    exact hout
  · left
    have hfinished : evaluator.outcome (.scoped scope block middle) =
      .value (.exit exit) after := hout
    rw [executeAttempt_apply]
    simp only [Evaluator.afterPending, hmiddle, hfinished, Result.afterFinally]

end Links

end Kestrel
