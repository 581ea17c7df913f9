import Kestrel.Proofs.Eval.LoopExit

/-!
# More steps

An evaluator may go only so many constructs deep, and repeat a loop only so many times. With more
steps it does the same, unless it had been given too few: then it goes on from there. So an outcome
that is reached with some number of steps is the outcome with every larger number.
-/

namespace Kestrel

/-- An end that is another one, unless that one came from too few steps. -/
def Result.Extends {α : Type} (result short : Result α) : Prop :=
  short = .halted .outOfSteps ∨ result = short

namespace Result.Extends

variable {α β : Type} {result short : Result α}

/-- Every end extends itself. -/
theorem refl (result : Result α) : result.Extends result := .inr rfl

/-- A function of an end that keeps halted ends keeps extensions. -/
theorem map (hresult : result.Extends short) {f : Result α → Result β}
    (hhalted : f (.halted .outOfSteps) = .halted .outOfSteps) : (f result).Extends (f short) := by
  rcases hresult with rfl | rfl
  · exact .inl hhalted
  · exact refl _

/-- An extension goes on as the end does that it extends, or extends what follows there. -/
theorem continuation (hresult : result.Extends short) (next shortNext : Result α → Result β)
    (hhalted : shortNext (.halted .outOfSteps) = .halted .outOfSteps)
    (hnext : (next short).Extends (shortNext short)) : (next result).Extends (shortNext short) := by
  rcases hresult with rfl | rfl
  · exact .inl hhalted
  · exact hnext

/-- An end that came from enough steps is the end with more of them. -/
theorem eq_of_ne (hresult : result.Extends short) (hshort : short ≠ .halted .outOfSteps) :
    result = short :=
  hresult.resolve_left hshort

/-- Two computations in a row end with more steps as they do with fewer. -/
theorem bind {first shortFirst : Eval α} {next shortNext : α → Eval β} {state : State}
    (hfirst : (first state).Extends (shortFirst state))
    (hnext : ∀ value after, (next value after).Extends (shortNext value after)) :
    ((first >>= next) state).Extends ((shortFirst >>= shortNext) state) := by
  rw [Eval.bind_apply, Eval.bind_apply]
  refine hfirst.continuation (fun result => result.andThen next)
    (fun result => result.andThen shortNext) rfl ?_
  cases shortFirst state with
  | value value after => exact hnext value after
  | interrupted interrupt after => exact refl _
  | halted reason => exact refl _

end Result.Extends

namespace Evaluator

variable {evaluator short : Evaluator}

/-- An evaluator all of whose visits end as those of another one do, unless that one had too few
steps for them. -/
def Extends (evaluator short : Evaluator) : Prop :=
  ∀ visit, (evaluator.outcome visit).Extends (short.outcome visit)

/-- A catch block ends with more steps as it does with fewer. -/
theorem Extends.afterBody (hextends : evaluator.Extends short) (scope : Scope)
    (catchBlock : Option Block) (bodyEnd : Result Signal) :
    (evaluator.afterBody scope catchBlock bodyEnd).Extends
      (short.afterBody scope catchBlock bodyEnd) := by
  cases bodyEnd with
  | value signal middle => exact .refl _
  | halted reason => exact .refl _
  | interrupted interrupt middle =>
    cases catchBlock with
    | none => exact .refl _
    | some block => exact hextends (.handling scope block interrupt middle)

/-- A finally block ends with more steps as it does with fewer. -/
theorem Extends.afterPending (hextends : evaluator.Extends short) (scope : Scope)
    (finallyBlock : Option Block) (pending : Result Signal) :
    (evaluator.afterPending scope finallyBlock pending).Extends
      (short.afterPending scope finallyBlock pending) := by
  cases finallyBlock with
  | none => exact .refl _
  | some block =>
    cases hmiddle : pending.after? with
    | none =>
      simp only [Evaluator.afterPending, hmiddle]
      exact .refl _
    | some middle =>
      have hfinished : (evaluator.outcome (.scoped scope block middle) : Result Signal).Extends
          (short.outcome (.scoped scope block middle)) := hextends _
      simp only [Evaluator.afterPending, hmiddle]
      exact hfinished.map (f := pending.afterFinally) rfl

end Evaluator

section Constructs

variable {evaluator short : Evaluator}

/-- A call ends with more steps as it does with fewer. -/
theorem callFunction_extends (hextends : evaluator.Extends short) (ref : Ref .function)
    (arguments : List Value) (module : String) (line : Nat) (state : State) :
    (callFunction evaluator ref arguments module line state).Extends
      (callFunction short ref arguments module line state) := by
  obtain ⟨scope, start, hscope, _⟩ := callScope_eq_value (state.store.get ref) arguments state
  rw [callFunction_apply _ module line hscope, callFunction_apply _ module line hscope]
  cases start.calls.push ⟨(state.store.get ref).displayName, module, line⟩ with
  | error cause => exact .refl _
  | ok calls =>
    have hbody := hextends (.body (state.store.get ref) scope start calls)
    exact hbody.map (f := Result.leaveCall) rfl

/-- A `try` statement ends with more steps as it does with fewer. -/
theorem executeAttempt_extends (hextends : evaluator.Extends short) (scope : Scope) (body : Block)
    (catchBlock finallyBlock : Option Block) (state : State) :
    (executeAttempt evaluator scope body catchBlock finallyBlock state).Extends
      (executeAttempt short scope body catchBlock finallyBlock state) := by
  have hpending : (evaluator.pendingEnd scope body catchBlock state).Extends
      (short.pendingEnd scope body catchBlock state) :=
    (hextends (.scoped scope body state)).continuation
      (evaluator.afterBody scope catchBlock) (short.afterBody scope catchBlock)
      (by cases catchBlock <;> rfl)
      (hextends.afterBody scope catchBlock _)
  rw [executeAttempt_apply, executeAttempt_apply]
  exact hpending.continuation (evaluator.afterPending scope finallyBlock)
    (short.afterPending scope finallyBlock)
    (Evaluator.afterPending_halted short scope finallyBlock)
    (hextends.afterPending scope finallyBlock _)

/-- With the same bound on the rounds of loops, whatever is put together from the parts of a layer
ends with more steps as it does with fewer. -/
theorem Composed.extends {layer : Layer} {α : Type} {construct : Construct α}
    (hcomposed : Composed layer construct) (hextends : evaluator.Extends short)
    (hrounds : evaluator.rounds = short.rounds) (state : State) :
    (construct evaluator state).Extends (construct short state) := by
  induction hcomposed generalizing state with
  | plain hplain => exact .refl _
  | query hquery =>
    cases hquery with
    | @task _ given hcontains => exact hextends ⟨given, state⟩
    | call ref arguments module line =>
      exact callFunction_extends hextends ref arguments module line state
    | attempt scope body catchBlock finallyBlock =>
      exact executeAttempt_extends hextends scope body catchBlock finallyBlock state
  | bind hfirst hnext ihfirst ihnext =>
    exact .bind (ihfirst state) fun value after => ihnext value after
  | @rounds α construct hcomposed ih =>
    change (construct evaluator.rounds evaluator state).Extends
      (construct short.rounds short state)
    rw [hrounds]
    exact ih short.rounds state

end Constructs

namespace Evaluator

/-- The same evaluator with another bound on the rounds of loops. -/
def withRounds (evaluator : Evaluator) (rounds : Nat) : Evaluator :=
  { evaluator with rounds }

/-- The bound on the rounds of loops plays no part in a visit. -/
theorem outcome_withRounds (evaluator : Evaluator) (rounds : Nat) (visit : Visit) :
    (evaluator.withRounds rounds).outcome visit = evaluator.outcome visit := by
  obtain ⟨task, state⟩ := visit
  cases task <;> rfl

end Evaluator

section Rounds

variable (evaluator : Evaluator) (rounds : Nat) (scope : Scope)

/-- The entries of a dictionary literal have nothing to do with the rounds of loops. -/
theorem evaluateEntries_withRounds (entries : OrderedMap Value) (literal : List DictionaryEntry) :
    evaluateEntries (evaluator.withRounds rounds) scope entries literal =
      evaluateEntries evaluator scope entries literal := by
  induction literal generalizing entries with
  | nil => rfl
  | cons entry others ih =>
    simp only [evaluateEntries, ih]
    rfl

/-- The fields of a struct literal have nothing to do with the rounds of loops. -/
theorem evaluateFields_withRounds (template : StructTemplate) (fields : OrderedMap Value)
    (literal : List StructField) :
    evaluateFields (evaluator.withRounds rounds) scope template fields literal =
      evaluateFields evaluator scope template fields literal := by
  induction literal generalizing fields with
  | nil => rfl
  | cons field others ih =>
    simp only [evaluateFields, ih]
    rfl

/-- No expression has anything to do with the rounds of loops. -/
theorem evaluateExpression_withRounds (host : Host) (expression : Expression) :
    evaluateExpression host (evaluator.withRounds rounds) scope expression =
      evaluateExpression host evaluator scope expression := by
  unfold evaluateExpression
  cases expression.form with
  | dictionary entries =>
    simp only [evaluateEntries_withRounds]
  | structLiteral target fields =>
    simp only [evaluateStructLiteral, evaluateFields_withRounds]
    rfl
  | _ => rfl

/-- The statements of a row have nothing to do with the rounds of a loop around them. -/
theorem executeRow_withRounds (last : Value) (statements : List Statement) :
    executeRow (evaluator.withRounds rounds) scope last statements =
      executeRow evaluator scope last statements := by
  induction statements generalizing last with
  | nil => rfl
  | cons statement others ih =>
    simp only [executeRow, ih]
    rfl

/-- The branches of an `if` have nothing to do with the rounds of loops. -/
theorem executeBranches_withRounds (otherwise : Option Block) (branches : List Branch) :
    executeBranches (evaluator.withRounds rounds) scope otherwise branches =
      executeBranches evaluator scope otherwise branches := by
  induction branches with
  | nil => rfl
  | cons branch others ih =>
    simp only [executeBranches, ih]
    rfl

/-- A loop over entries is not bounded. -/
theorem executeRounds_withRounds (index : Option Identifier) (item : Identifier) (body : Block)
    (entries : List (Value × Value)) :
    executeRounds (evaluator.withRounds rounds) scope index item body entries =
      executeRounds evaluator scope index item body entries := by
  induction entries with
  | nil => rfl
  | cons entry others ih =>
    simp only [executeRounds, ih]
    rfl

/-- Only the loop that nothing but its body can end is bounded. -/
theorem executeForm_withRounds (host : Host) {form : StatementForm}
    (hform : ∀ body span, form ≠ .loop body span) :
    executeForm host (evaluator.withRounds rounds) scope form =
      executeForm host evaluator scope form := by
  cases form with
  | loop body span => exact absurd rfl (hform body span)
  | conditional branches otherwise span => exact executeBranches_withRounds _ _ _ _ _
  | forEach index item iterable body span =>
    simp only [executeForm, executeRounds_withRounds]
    rfl
  | returning value => cases value <;> rfl
  | _ => rfl

end Rounds

namespace Evaluator.Extends

variable {evaluator short : Evaluator}

/-- Constructs that have nothing to do with the rounds of loops end with more steps as they do with
fewer. -/
theorem construct {layer : Layer} {α : Type} {construct : Construct α}
    (hextends : evaluator.Extends short) (hcomposed : Composed layer construct)
    (hrounds : construct (short.withRounds evaluator.rounds) = construct short) (state : State) :
    (construct evaluator state).Extends (construct short state) := by
  have hlimited : evaluator.Extends (short.withRounds evaluator.rounds) := by
    intro visit
    rw [outcome_withRounds]
    exact hextends visit
  rw [← hrounds]
  exact hcomposed.extends hlimited rfl state

/-- A loop that may be repeated more often ends as it does with fewer rounds. -/
theorem executeLoop (hextends : evaluator.Extends short) (scope : Scope) (body : Block)
    {rounds more : Nat} (hrounds : rounds ≤ more) (state : State) :
    (Kestrel.executeLoop evaluator scope body more state).Extends
      (Kestrel.executeLoop short scope body rounds state) := by
  induction rounds generalizing more state with
  | zero => exact .inl rfl
  | succ rounds ih =>
    obtain ⟨more, rfl⟩ := Nat.exists_eq_add_one_of_ne_zero (by omega : more ≠ 0)
    rw [executeLoop_succ, executeLoop_succ]
    refine .bind (hextends (.scoped scope body state)) fun signal after => ?_
    have hnext : ∀ middle, (Kestrel.executeLoop evaluator scope body more middle).Extends
        (Kestrel.executeLoop short scope body rounds middle) := ih (by omega)
    cases signal with
    | value given => exact hnext after
    | returned given => exact .refl _
    | exit exit =>
      cases exit with
      | breaking => exact .refl _
      | continuing => exact hnext after

/-- A statement ends with more steps as it does with fewer. -/
theorem form (hextends : evaluator.Extends short) (hrounds : short.rounds ≤ evaluator.rounds)
    (host : Host) (scope : Scope) (form : StatementForm) (state : State) :
    (executeForm host evaluator scope form state).Extends
      (executeForm host short scope form state) := by
  by_cases hloop : ∃ body span, form = .loop body span
  · obtain ⟨body, span, rfl⟩ := hloop
    exact hextends.executeLoop scope body hrounds state
  · refine hextends.construct (Composed.executeForm host scope form)
      (executeForm_withRounds short _ scope host fun body span h => hloop ⟨body, span, h⟩) state

/-- Every task is carried out with more steps as it is with fewer. -/
theorem task (hextends : evaluator.Extends short) (hrounds : short.rounds ≤ evaluator.rounds)
    (host : Host) (task : Task) (state : State) :
    (task.construct host evaluator state).Extends (task.construct host short state) := by
  cases task with
  | expression scope part =>
    exact hextends.construct (Composed.evaluateExpression host scope part)
      (evaluateExpression_withRounds short _ scope host part) state
  | statement scope part =>
    have hform := hextends.form hrounds host scope part.form state
    simp only [Task.construct, executeStatement_apply]
    exact hform.map (f := Result.settled scope part.line) rfl
  | block scope parts =>
    exact hextends.construct (Composed.executeRow scope .nothing parts)
      (executeRow_withRounds short _ scope .nothing parts) state

end Evaluator.Extends

/-- With more steps every visit ends as it does with fewer, unless those were too few. -/
theorem Evaluator.ofSteps_extends (host : Host) {steps more : Nat} (hsteps : steps ≤ more) :
    (ofSteps host more).Extends (ofSteps host steps) := by
  induction steps generalizing more with
  | zero => exact fun visit => .inl (outcome_ofSteps_zero host visit)
  | succ steps ih =>
    obtain ⟨more, rfl⟩ := Nat.exists_eq_add_one_of_ne_zero (by omega : more ≠ 0)
    intro visit
    have hextends : (ofSteps host more).Extends (ofSteps host steps) := ih (by omega)
    rw [outcome_ofSteps_succ, outcome_ofSteps_succ]
    have hrounds : (ofSteps host steps).rounds ≤ (ofSteps host more).rounds := by
      cases steps with
      | zero => exact Nat.zero_le _
      | succ steps =>
        obtain ⟨more, rfl⟩ := Nat.exists_eq_add_one_of_ne_zero (by omega : more ≠ 0)
        change steps ≤ more
        omega
    exact hextends.task hrounds host visit.task visit.state

/-- A visit comes to an end, with some number of steps. -/
def Visit.Terminates (host : Host) (visit : Visit) : Prop :=
  ∃ steps, ∀ reason, (Evaluator.ofSteps host steps).outcome visit ≠ .halted reason

/-- A visit that ends with some number of steps ends in the same way with more of them. -/
theorem Visit.outcome_eq_of_le (host : Host) {steps more : Nat} (hsteps : steps ≤ more)
    {visit : Visit}
    (hend : (Evaluator.ofSteps host steps).outcome visit ≠ .halted .outOfSteps) :
    (Evaluator.ofSteps host more).outcome visit = (Evaluator.ofSteps host steps).outcome visit :=
  (Evaluator.ofSteps_extends host hsteps visit).eq_of_ne hend

end Kestrel
