import Kestrel.Proofs.Eval.LoopExit

/-!
# The way of a loop exit

A loop exit leaves one visit after another. It comes to an end at a loop, whose body it left, at an
import, whose program it left, or at a finally block that ends in a way of its own; otherwise it
leaves all visits around, up to the program. The step from a visit to the one around it is an
analysis of the forms, and the whole way follows by induction on the chain of visits.
-/

namespace Kestrel

/-- Whether a statement keeps the loop exits that leave its blocks to itself: a loop obeys them, and
an import fails with them. -/
def StatementForm.confinesExits : StatementForm → Bool
  | loop _ _ => true
  | forEach _ _ _ _ _ => true
  | importing _ => true
  | _ => false

/-- Whether a loop exit that leaves the second task can leave the first one, around it, too. It
cannot leave a loop or an import from the inside. -/
def Task.Passes : Task → Task → Prop
  | .statement _ part, .block _ _ => part.form.confinesExits = false
  | _, _ => True

/-- The ends of a statement that stops a loop exit, which left one of its blocks in some state. -/
inductive StatementForm.Stops (evaluator : Evaluator) (scope : Scope) (state : State)
    (exit : LoopExit) (after : State) : StatementForm → Result Signal → Prop
  /-- The loop is over, or it goes on with fewer rounds. -/
  | loop {body : Block} {span : Span} {left : Nat} (hleft : left < evaluator.rounds) :
    Stops evaluator scope state exit after (.loop body span)
      (exit.endRound (executeLoop evaluator scope body left) after)
  /-- The loop is over, or it goes on with the entries after the one whose round was left. -/
  | forEach {index : Option Identifier} {item : Identifier} {iterable : Expression} {body : Block}
    {span : Span} {given : Value} {middle : State} {entry : Value × Value}
    {entries others : List (Value × Value)}
    (hgiven : evaluator.expression scope iterable state = .value given middle)
    (hentries : iterationEntries middle.store given = .ok entries)
    (hothers : entry :: others <:+ entries) :
    Stops evaluator scope state exit after (.forEach index item iterable body span)
      (exit.endRound (executeRounds evaluator scope index item body others) after)
  /-- The module fails. -/
  | importing {declaration : ImportDeclaration} :
    Stops evaluator scope state exit after (.importing declaration)
      (.interrupted (.error (.ofCause (.loopExitOutside exit))) after)
  /-- The finally block does not end normally, and its end replaces the loop exit. -/
  | attempt {body finallyBlock : Block} {catchBlock : Option Block} {span : Span}
    {finished : Result Signal}
    (hfinished : evaluator.outcome (.scoped scope finallyBlock after) = finished)
    (habrupt : ∀ given final, finished ≠ .value (.value given) final) :
    Stops evaluator scope state exit after (.attempt body catchBlock (some finallyBlock) span)
      finished

section Steps

variable {host : Host} {evaluator : Evaluator} {exit : LoopExit} {scope inner : Scope}
  {state start after : State} {parts : List Statement}

/-- A `try` statement lets out the loop exit that is its pending end, or its finally block stops
it. -/
theorem executeAttempt_of_pending {body : Block} {catchBlock finallyBlock : Option Block}
    {span : Span}
    (hpending : evaluator.pendingEnd scope body catchBlock state = .value (.exit exit) after) :
    (∃ final, executeAttempt evaluator scope body catchBlock finallyBlock state =
      .value (.exit exit) final) ∨
    (StatementForm.attempt body catchBlock finallyBlock span).Stops evaluator scope state exit after
      (executeAttempt evaluator scope body catchBlock finallyBlock state) := by
  rw [executeAttempt_apply, hpending]
  cases finallyBlock with
  | none => exact .inl ⟨after, rfl⟩
  | some block =>
    have hend : evaluator.afterPending scope (some block) (.value (.exit exit) after) =
      (Result.value (.exit exit) after).afterFinally
        (evaluator.outcome (.scoped scope block after)) := rfl
    rw [hend]
    by_cases hnormal : ∃ given final,
      evaluator.outcome (.scoped scope block after) = .value (.value given) final
    · obtain ⟨given, final, hfinished⟩ := hnormal
      left
      refine ⟨final, ?_⟩
      rw [hfinished]
      rfl
    · have habrupt : ∀ given final,
          evaluator.outcome (.scoped scope block after) ≠ .value (.value given) final :=
        fun given final hfinished => hnormal ⟨given, final, hfinished⟩
      right
      rw [Result.afterFinally_of_abrupt habrupt]
      exact .attempt rfl habrupt

/-- A statement lets a loop exit out that left one of its blocks, or stops it. -/
theorem executeForm_of_exit {form : StatementForm}
    (hasks : Asks (fun e => executeForm host e scope form) evaluator state
      ⟨.block inner parts, start⟩)
    (hinner : evaluator.block inner parts start = .value (.exit exit) after) :
    (form.confinesExits = false ∧
      ∃ final, executeForm host evaluator scope form state = .value (.exit exit) final) ∨
    form.Stops evaluator scope state exit after (executeForm host evaluator scope form state) := by
  by_cases hform : form.containsBlocks = false
  · exact ((Composed.executeForm_of_blockless host scope hform).contains_of_asks nofun hasks).elim
  · cases form with
    | conditional branches otherwise span =>
      exact .inl ⟨rfl, after, (executeBranches_of_block hasks).trans hinner⟩
    | loop body span =>
      have hasks : Asks (fun e => executeLoop e scope body evaluator.rounds) evaluator state
        ⟨.block inner parts, start⟩ := hasks
      obtain ⟨left, hleft, hend⟩ := executeLoop_of_exit hasks hinner
      right
      have hform : executeForm host evaluator scope (.loop body span) state =
        exit.endRound (executeLoop evaluator scope body left) after := hend
      rw [hform]
      exact .loop hleft
    | forEach index item iterable body span =>
      obtain ⟨given, middle, hgiven, hasks⟩ := asks_block_after_expression hasks
      obtain ⟨entries, ready, hentries, hasks⟩ := asks_after_const hasks
      obtain ⟨entry, others, hothers, hend⟩ := executeRounds_of_exit hasks hinner
      right
      have hform : executeForm host evaluator scope (.forEach index item iterable body span) state =
          exit.endRound (executeRounds evaluator scope index item body others) after :=
        (Eval.bind_of_value hgiven _).trans ((Eval.bind_of_value hentries _).trans hend)
      rw [hform]
      exact .forEach hgiven (Eval.viewOrFail_eq_value hentries).1 hothers
    | attempt body catchBlock finallyBlock span =>
      have hout : evaluator.LetsOut exit ⟨.block inner parts, start⟩ after := hinner
      rcases executeAttempt_of_exit hasks hout with hend | hpending
      · exact .inl ⟨rfl, after, hend⟩
      · exact (executeAttempt_of_pending hpending).imp_left fun hend => ⟨rfl, hend⟩
    | importing declaration =>
      rcases (Composed.executeImport host scope declaration).asks_bind_iff.mp hasks with
        hasks | ⟨_, _, _, hasks⟩
      · right
        have hform : executeForm host evaluator scope (.importing declaration) state =
            .interrupted (.error (.ofCause (.loopExitOutside exit))) after :=
          Eval.bind_of_interrupted (executeImport_of_exit hasks hinner) _
        rw [hform]
        exact .importing
      · exact absurd hasks (ignores_const _ _ _ _).not_asks
    | _ => exact absurd rfl hform

/-- An expression asks for no statement. -/
theorem Composed.not_asks_statement {α : Type} {construct : Construct α}
    (hcomposed : Composed .expression construct) {part : Statement} :
    ¬ Asks construct evaluator state ⟨.statement inner part, start⟩ := by
  intro hasks
  obtain ⟨β, query, middle, hquery, hasks, _⟩ := hcomposed.exists_query hasks
  cases hquery with
  | task hcontains =>
    cases asks_perform_iff.mp hasks
    exact hcontains
  | call ref arguments module line =>
    obtain ⟨_, _, _, hvisit⟩ := exists_block_of_asks_callFunction hasks
    cases hvisit

end Steps

section Leads

variable {host : Host} {steps : Nat} {exit : LoopExit} {scope inner : Scope}
  {state start after : State}

/-- A loop exit that leaves a part of an expression leaves the expression. -/
theorem Leads.letsOut_expression {part : Expression} {visit : Visit}
    (hleads : Leads host steps ⟨.expression scope part, state⟩ visit)
    (hout : (Evaluator.ofSteps host steps).LetsOut exit visit after) :
    ∃ final, (Evaluator.ofSteps host (steps + 1)).LetsOut exit
      ⟨.expression scope part, state⟩ final := by
  have hcomposed := Composed.evaluateExpression host scope part
  obtain ⟨task, begun⟩ := visit
  cases task with
  | expression other operand => exact ⟨after, hcomposed.interrupted_of_expression hleads hout⟩
  | statement other row => exact absurd hleads hcomposed.not_asks_statement
  | block other parts => exact ⟨after.leaveCall, hcomposed.interrupted_of_body hleads hout⟩

/-- A loop exit that leaves an expression of a statement is the signal of the statement. -/
theorem Leads.exit_of_expression {statement : Statement} {part : Expression}
    (hleads : Leads host steps ⟨.statement scope statement, state⟩
      ⟨.expression inner part, start⟩)
    (hout : (Evaluator.ofSteps host steps).LetsOut exit ⟨.expression inner part, start⟩ after) :
    executeStatement host (.ofSteps host steps) scope statement state =
      .value (.exit exit) after := by
  have hasks : Asks (fun e => executeForm host e scope statement.form) (.ofSteps host steps) state
    ⟨.expression inner part, start⟩ := Task.asks_construct_iff.mp hleads
  have hform :=
    (Composed.executeForm host scope statement.form).interrupted_of_expression hasks hout
  rw [executeStatement_apply]
  exact congrArg (Result.settled scope statement.line) hform

/-- A loop exit that leaves a statement of a block is the signal of the block. -/
theorem Leads.letsOut_block {statements : List Statement} {visit : Visit}
    (hleads : Leads host steps ⟨.block scope statements, state⟩ visit)
    (hout : (Evaluator.ofSteps host steps).LetsOut exit visit after) :
    (Evaluator.ofSteps host (steps + 1)).LetsOut exit ⟨.block scope statements, state⟩ after := by
  have hcontains := (Composed.executeRow scope .nothing statements).contains_of_asks nofun hleads
  obtain ⟨task, begun⟩ := visit
  cases task with
  | expression other operand => exact hcontains.elim
  | statement other row => exact executeRow_of_exit hleads hout
  | block other parts => exact hcontains.elim

/-- A loop exit that leaves a part of a visit leaves the visit too, or a statement stops it. -/
theorem Leads.letsOut_or_stops {outer middle : Visit} (hleads : Leads host steps outer middle)
    (hout : (Evaluator.ofSteps host steps).LetsOut exit middle after) :
    (outer.task.Passes middle.task ∧
      ∃ final, (Evaluator.ofSteps host (steps + 1)).LetsOut exit outer final) ∨
    ∃ scope statement state, outer = ⟨.statement scope statement, state⟩ ∧
      statement.form.Stops (.ofSteps host steps) scope state exit after
        (executeForm host (.ofSteps host steps) scope statement.form state) := by
  obtain ⟨outerTask, state⟩ := outer
  cases outerTask with
  | expression scope part => exact .inl ⟨trivial, hleads.letsOut_expression hout⟩
  | block scope statements => exact .inl ⟨trivial, after, hleads.letsOut_block hout⟩
  | statement scope statement =>
    have hasks : Asks (fun e => executeForm host e scope statement.form) (.ofSteps host steps) state
      middle := Task.asks_construct_iff.mp hleads
    have hcontains := (Composed.executeForm host scope statement.form).contains_of_asks nofun hasks
    obtain ⟨task, begun⟩ := middle
    cases task with
    | expression inner part => exact .inl ⟨trivial, after, hleads.exit_of_expression hout⟩
    | statement inner part => exact hcontains.elim
    | block inner parts =>
      rcases executeForm_of_exit hasks hout with ⟨hform, final, hend⟩ | hstops
      · left
        refine ⟨hform, final, ?_⟩
        have hsettled := executeStatement_apply host (.ofSteps host steps) scope statement state
        rw [hend] at hsettled
        exact hsettled
      · exact .inr ⟨scope, statement, state, rfl, hstops⟩

end Leads

/-- A loop exit leaves all visits of a chain, from the last one to the first. -/
inductive Unwinds (host : Host) (exit : LoopExit) : Nat → Visit → Nat → Visit → Prop
  | leaves {steps : Nat} {visit : Visit} {after : State}
    (hout : (Evaluator.ofSteps host steps).LetsOut exit visit after) :
    Unwinds host exit steps visit steps visit
  | passes {steps left : Nat} {outer middle inner : Visit} {after : State}
    (hleads : Leads host steps outer middle) (hpasses : outer.task.Passes middle.task)
    (hout : (Evaluator.ofSteps host (steps + 1)).LetsOut exit outer after)
    (hunwinds : Unwinds host exit steps middle left inner) :
    Unwinds host exit (steps + 1) outer left inner

/-- The first visit of a chain is left with the others. -/
theorem Unwinds.letsOut {host : Host} {exit : LoopExit} {steps left : Nat} {outer inner : Visit}
    (hunwinds : Unwinds host exit steps outer left inner) :
    ∃ after, (Evaluator.ofSteps host steps).LetsOut exit outer after := by
  cases hunwinds with
  | leaves hout => exact ⟨_, hout⟩
  | passes hleads hpasses hout hunwinds => exact ⟨_, hout⟩

/-- A statement around a visit stops a loop exit that left the visit and all between the two. -/
def StopsBetween (host : Host) (exit : LoopExit) (steps : Nat) (outer : Visit) (left : Nat)
    (inner : Visit) : Prop :=
  ∃ below scope statement state middle after,
    Reaches host steps outer (below + 1) ⟨.statement scope statement, state⟩ ∧
    Leads host below ⟨.statement scope statement, state⟩ middle ∧
    Unwinds host exit below middle left inner ∧
    (Evaluator.ofSteps host below).LetsOut exit middle after ∧
    statement.form.Stops (.ofSteps host below) scope state exit after
      (executeForm host (.ofSteps host below) scope statement.form state)

/-- A loop exit that leaves a visit leaves everything around it, or a statement stops it on its
way. -/
theorem Reaches.unwinds_or_stops {host : Host} {exit : LoopExit} {steps left : Nat}
    {outer inner : Visit} {after : State} (hreaches : Reaches host steps outer left inner)
    (hout : (Evaluator.ofSteps host left).LetsOut exit inner after) :
    Unwinds host exit steps outer left inner ∨ StopsBetween host exit steps outer left inner := by
  induction hreaches with
  | refl steps visit => exact .inl (.leaves hout)
  | @step steps left outer middle inner hleads hreaches ih =>
    rcases ih hout with hunwinds | ⟨below, scope, statement, state, next, final, hbetween, hstop⟩
    · obtain ⟨final, hmiddle⟩ := hunwinds.letsOut
      rcases hleads.letsOut_or_stops hmiddle with
        ⟨hpasses, last, houter⟩ | ⟨scope, statement, state, rfl, hstops⟩
      · exact .inl (.passes hleads hpasses houter hunwinds)
      · exact .inr ⟨steps, scope, statement, state, middle, final, .refl _ _, hleads, hunwinds,
          hmiddle, hstops⟩
    · exact .inr ⟨below, scope, statement, state, next, final, .step hleads hbetween, hstop⟩

/-- A loop exit that leaves the block of a program is an error of the program. -/
theorem Unwinds.program_fails {host : Host} {exit : LoopExit} {steps left : Nat} {scope : Scope}
    {statements : List Statement} {state : State} {inner : Visit}
    (hunwinds : Unwinds host exit steps ⟨.block scope statements, state⟩ left inner) :
    ∃ after, executeProgram (.ofSteps host steps) scope statements state =
      .interrupted (.error (.ofCause (.loopExitOutside exit))) after := by
  obtain ⟨after, hout⟩ := hunwinds.letsOut
  exact ⟨after, executeProgram_of_exit hout⟩

/-- After a body that a loop exit left, a `try` statement comes to its finally block, and not to its
catch block. -/
theorem leads_attempt_of_exit {host : Host} {exit : LoopExit} {steps : Nat} {scope : Scope}
    {body : Block} {catchBlock finallyBlock : Option Block} {inner span : Span}
    {state after : State}
    (hout : (Evaluator.ofSteps host steps).LetsOut exit (.scoped scope body state) after)
    (visit : Visit) :
    Leads host steps ⟨.statement scope ⟨.attempt body catchBlock finallyBlock inner, span⟩, state⟩
        visit ↔
      visit = .scoped scope body state ∨
        ∃ block, finallyBlock = some block ∧ visit = .scoped scope block after := by
  have hbody : (Evaluator.ofSteps host steps).outcome (.scoped scope body state) =
    .value (.exit exit) after := hout
  have hpending : (Evaluator.ofSteps host steps).pendingEnd scope body catchBlock state =
      .value (.exit exit) after := by
    unfold Evaluator.pendingEnd
    rw [hbody]
    rfl
  rw [leads_attempt_iff, hbody, hpending]
  simp [Result.after?]

/-- No loop exit interrupts a statement, a block or a program. One that leaves a part of an
expression leaves the expression, and it becomes the signal of the statement with the expression.
From there it leaves one visit after another: past catch blocks, through the finally blocks on its
way, and through further calls. It ends at the nearest loop, which obeys it, at a finally block that
does not end normally, or as an error of an imported module or of the program. -/
theorem loopExit_unwinds_to_loop (host : Host) (steps : Nat) (exit : LoopExit) :
    (∀ scope statement state,
      (executeStatement host (.ofSteps host steps) scope statement state).Confined) ∧
    (∀ scope statements state,
      (executeBlock (.ofSteps host steps) scope statements state).Confined) ∧
    (∀ scope statements state,
      (executeProgram (.ofSteps host steps) scope statements state).Confined) ∧
    (∀ scope part state visit after,
      Leads host steps ⟨.expression scope part, state⟩ visit →
      (Evaluator.ofSteps host steps).LetsOut exit visit after →
        ∃ final, (Evaluator.ofSteps host (steps + 1)).LetsOut exit
          ⟨.expression scope part, state⟩ final) ∧
    (∀ scope statement state inner part start after,
      Leads host steps ⟨.statement scope statement, state⟩ ⟨.expression inner part, start⟩ →
      (Evaluator.ofSteps host steps).LetsOut exit ⟨.expression inner part, start⟩ after →
        executeStatement host (.ofSteps host steps) scope statement state =
          .value (.exit exit) after) ∧
    (∀ outer left inner after, Reaches host steps outer left inner →
      (Evaluator.ofSteps host left).LetsOut exit inner after →
        Unwinds host exit steps outer left inner ∨
          StopsBetween host exit steps outer left inner) ∧
    (∀ scope statements state left inner,
      Unwinds host exit steps ⟨.block scope statements, state⟩ left inner →
        ∃ after, executeProgram (.ofSteps host steps) scope statements state =
          .interrupted (.error (.ofCause (.loopExitOutside exit))) after) ∧
    (∀ scope body catchBlock finallyBlock inner span state after,
      (Evaluator.ofSteps host steps).LetsOut exit (.scoped scope body state) after → ∀ visit,
        Leads host steps
            ⟨.statement scope ⟨.attempt body catchBlock finallyBlock inner, span⟩, state⟩ visit ↔
          visit = .scoped scope body state ∨
            ∃ block, finallyBlock = some block ∧ visit = .scoped scope block after) ∧
    (∀ scope body catchBlock finallyBlock inner span state after,
      (Evaluator.ofSteps host steps).pendingEnd scope body catchBlock state =
          .value (.exit exit) after →
        Leads host steps
          ⟨.statement scope ⟨.attempt body catchBlock (some finallyBlock) inner, span⟩, state⟩
          (.scoped scope finallyBlock after)) := by
  refine ⟨?_, executeBlock_confined host steps, executeProgram_confined host steps, ?_, ?_, ?_, ?_,
    ?_, ?_⟩
  · intro scope statement state
    rw [executeStatement_apply]
    exact Result.confined_settled _ _ _
  · intro scope part state visit after hleads hout
    exact hleads.letsOut_expression hout
  · intro scope statement state inner part start after hleads hout
    exact hleads.exit_of_expression hout
  · intro outer left inner after hreaches hout
    exact hreaches.unwinds_or_stops hout
  · intro scope statements state left inner hunwinds
    exact hunwinds.program_fails
  · intro scope body catchBlock finallyBlock inner span state after hout visit
    exact leads_attempt_of_exit hout visit
  · intro scope body catchBlock finallyBlock inner span state after hpending
    refine leads_attempt_iff.mpr (.inr ⟨after, finallyBlock, ?_, rfl, rfl⟩)
    rw [hpending]
    rfl

/-- A function that is called where it is written, with nothing but a `break` in it. -/
def breakingCall : Statement :=
  ⟨.expression ⟨.call ⟨.function [] ⟨[⟨.breaking, default⟩], default⟩, default⟩ [], default⟩,
    default⟩

/-- Where a function breaks inside a `try` statement, the finally block is begun. -/
theorem finally_begun_after_breakingCall :
    ∃ after, (Evaluator.ofSteps ⟨false, .fromMemory [], []⟩ 6).LetsOut .breaking
        (.scoped default ⟨[breakingCall], default⟩ default) after ∧
      Leads ⟨false, .fromMemory [], []⟩ 6
        ⟨.statement default
          ⟨.attempt ⟨[breakingCall], default⟩ none (some default) default, default⟩, default⟩
        (.scoped default default after) := by
  obtain ⟨_, _, _, _, _, _, _, htry, _⟩ :=
    loopExit_unwinds_to_loop ⟨false, .fromMemory [], []⟩ 6 .breaking
  obtain ⟨after, hout⟩ : ∃ after, (Evaluator.ofSteps ⟨false, .fromMemory [], []⟩ 6).LetsOut
    .breaking (.scoped default ⟨[breakingCall], default⟩ default) after := ⟨_, rfl⟩
  exact ⟨after, hout, (htry _ _ _ _ _ _ _ _ hout _).mpr (.inr ⟨default, rfl, rfl⟩)⟩

/-- A finally block can replace a loop exit. The function breaks in the body of a loop, but the loop
neither ends with nothing, as a `break` makes it do, nor does it let the exit out to the program. -/
theorem finally_replaces_loopExit :
    let returning : Statement := ⟨.returning (some ⟨.string "finally", default⟩), default⟩
    let guarded : Statement :=
      ⟨.attempt ⟨[breakingCall], default⟩ none (some ⟨[returning], default⟩) default, default⟩
    let loop : Statement := ⟨.loop ⟨[guarded], default⟩ default, default⟩
    let last : Statement := ⟨.expression ⟨.string "loop left", default⟩, default⟩
    let evaluator := Evaluator.ofSteps ⟨false, .fromMemory [], []⟩ 9
    (∃ after, evaluator.LetsOut .breaking
      (.scoped default ⟨[breakingCall], default⟩ default) after) ∧
    (∃ after, evaluator.outcome ⟨.statement default loop, default⟩ =
      .value (.returned (.string "finally")) after) ∧
    ∃ after, executeProgram evaluator default [loop, last] default =
      .value (.string "finally") after :=
  ⟨⟨_, rfl⟩, ⟨_, rfl⟩, ⟨_, rfl⟩⟩

end Kestrel
