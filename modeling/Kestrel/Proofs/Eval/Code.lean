import Kestrel.Proofs.Eval.Course
import Kestrel.Proofs.Eval.Tame

/-!
# Code that is run

What a program comes to run is in its own text, in the functions of the store, or in the text of a
module. If all of this can be run, it stays so: a construct asks only for code that can be run, and
its end is tame. The constructs are gone through once, along the tree, and a whole run follows by
induction over the steps.
-/

namespace Kestrel

open SyntaxNode (Runs AllRun allRun_cons allRun_append allRun_map allRun_singleton)

/-- The code of a task. -/
def Task.code : Task → List SyntaxNode
  | .expression _ part => [.expression part]
  | .statement _ part => [.statement part]
  | .block _ parts => parts.map .statement

/-- A visit of code that can be run, in a state in which functions can be run. -/
structure Visit.Ready (visit : Visit) : Prop where
  code : AllRun visit.task.code
  functions : visit.state.store.FunctionsRun

/-- An evaluator whose visits end tamely. -/
def Evaluator.Tame (evaluator : Evaluator) : Prop :=
  ∀ visit : Visit, visit.Ready → (evaluator.outcome visit).Tame

/-- The native libraries of a host fail in ordinary ways. -/
def Host.FailsOrdinarily (host : Host) : Prop :=
  ∀ library ∈ host.libraries, ∀ name, Fails (library.content name) Cause.Ordinary

/-- What a block runs is inside it. -/
theorem Visit.Ready.block {scope : Scope} {block : Block} {state : State}
    (hcode : (SyntaxNode.block block).Runs) (hfunctions : state.store.FunctionsRun) :
    (Visit.mk (.block scope block.statements) state).Ready :=
  ⟨hcode.inside, hfunctions⟩

/-- Constructs that are put together from tame steps, from code that can be run, and from calls. -/
inductive Construct.Tame (layer : Layer) : {α : Type} → Construct α → Prop
  | plain {α : Type} {computation : Eval α} (htame : computation.Tame) :
    Construct.Tame layer fun _ => computation
  | task {task : Task} (hcontains : layer.Contains task) (hcode : AllRun task.code) :
    Construct.Tame layer fun evaluator => evaluator.perform task
  | call (hlayer : layer = .expression) (ref : Ref .function) (arguments : List Value)
    (module : String) (line : Nat) :
    Construct.Tame layer fun evaluator => callFunction evaluator ref arguments module line
  | attempt (hlayer : layer = .form) (scope : Scope) {body : Block}
    {catchBlock finallyBlock : Option Block} (hbody : (SyntaxNode.block body).Runs)
    (hcatch : ∀ block ∈ catchBlock, (SyntaxNode.block block).Runs)
    (hfinally : ∀ block ∈ finallyBlock, (SyntaxNode.block block).Runs) :
    Construct.Tame layer fun evaluator =>
      executeAttempt evaluator scope body catchBlock finallyBlock
  | bind {α β : Type} {first : Construct α} {next : α → Construct β}
    (hfirst : Construct.Tame layer first) (hnext : ∀ value, Construct.Tame layer (next value)) :
    Construct.Tame layer fun evaluator => first evaluator >>= fun value => next value evaluator
  | rounds {α : Type} {construct : Nat → Construct α}
    (hrounds : ∀ rounds, Construct.Tame layer (construct rounds)) :
    Construct.Tame layer fun evaluator => construct evaluator.rounds evaluator

/-- A call ends tamely if the body of the function does. -/
theorem Result.Tame.leaveCall {result : Result Signal} (htame : result.Tame) :
    result.leaveCall.Tame := by
  cases result with
  | value signal after =>
    cases signal with
    | exit exit => exact ⟨htame, by simp [Interrupt.asError, RuntimeError.ofCause, Cause.Ordinary]⟩
    | _ => exact htame
  | interrupted interrupt after => exact htame
  | halted reason => trivial

/-- A statement ends tamely if its form does: where an error comes from is no part of its cause. -/
theorem Result.Tame.settled {result : Result Signal} (htame : result.Tame) (scope : Scope)
    (line : Nat) : (result.settled scope line).Tame := by
  cases result with
  | value signal after => exact htame
  | interrupted interrupt after =>
    cases interrupt with
    | error error =>
      refine ⟨htame.1, ?_⟩
      have hcause : (error.locate ⟨scope.module, line⟩ after.calls.frames).cause = error.cause := by
        unfold RuntimeError.locate
        split <;> rfl
      simpa only [Interrupt.asError, hcause] using htame.2
    | loopExit exit => exact htame.1
  | halted reason => trivial

/-- A statement ends tamely if what is pending does and its finally block does. -/
theorem Result.Tame.afterFinally {pending finished : Result Signal} (hpending : pending.Tame)
    (hfinished : finished.Tame) : (pending.afterFinally finished).Tame := by
  cases finished with
  | interrupted interrupt after => exact hfinished
  | halted reason => trivial
  | value signal after =>
    cases signal with
    | returned given => exact hfinished
    | exit exit => exact hfinished
    | value given =>
      cases pending with
      | value signal middle => exact hfinished
      | interrupted interrupt middle => exact ⟨hfinished, hpending.2⟩
      | halted reason => trivial

section Attempt

variable {evaluator : Evaluator} {scope : Scope} {body block : Block} {catchBlock : Option Block}
  {state : State}

/-- A block in a new scope. -/
theorem Visit.Ready.scoped (scope : Scope) (hcode : (SyntaxNode.block block).Runs)
    (hfunctions : state.store.FunctionsRun) : (Visit.scoped scope block state).Ready :=
  .block hcode (hfunctions.add_of_ne (by simp) _)

/-- A catch block. -/
theorem Visit.Ready.handling {interrupt : Interrupt} (hcode : (SyntaxNode.block block).Runs)
    (hfunctions : state.store.FunctionsRun) : (Visit.handling scope block interrupt state).Ready :=
  have hchild : (state.store.add .scope .empty).FunctionsRun := hfunctions.add_of_ne (by simp) _
  .block hcode (@Store.FunctionsRun.modify_of_ne .scope _ hchild (by simp) _ _)

/-- What comes before a finally block. -/
theorem Evaluator.Tame.pendingEnd (htame : evaluator.Tame) (scope : Scope)
    (hbody : (SyntaxNode.block body).Runs)
    (hcatch : ∀ block ∈ catchBlock, (SyntaxNode.block block).Runs)
    (hfunctions : state.store.FunctionsRun) :
    (evaluator.pendingEnd scope body catchBlock state).Tame := by
  have hend := htame _ (.scoped scope hbody hfunctions)
  unfold Evaluator.pendingEnd
  cases h : evaluator.outcome (.scoped scope body state) with
  | value signal middle =>
    rw [h] at hend
    exact hend
  | halted reason => trivial
  | interrupted interrupt middle =>
    rw [h] at hend
    cases catchBlock with
    | none => exact hend
    | some block => exact htame _ (.handling (hcatch block rfl) hend.1)

end Attempt

namespace Construct.Tame

variable {layer : Layer} {α : Type} {construct : Construct α}

/-- What is put together from tame steps and code is put together from the parts of its layer. -/
theorem composed (htame : Construct.Tame layer construct) : Composed layer construct := by
  induction htame with
  | plain htame => exact .plain htame.plain
  | task hcontains hcode => exact .task hcontains
  | call hlayer ref arguments module line =>
    subst hlayer
    exact .query (.call ref arguments module line)
  | attempt hlayer scope hbody hcatch hfinally =>
    subst hlayer
    exact .query (.attempt ..)
  | bind hfirst hnext ihfirst ihnext => exact .bind ihfirst ihnext
  | rounds hrounds ih => exact .rounds ih

variable {evaluator : Evaluator} {state : State}

/-- With a tame evaluator, a tame construct ends tamely. -/
theorem ends (htame : Construct.Tame layer construct) (hevaluator : evaluator.Tame)
    (hfunctions : state.store.FunctionsRun) : (construct evaluator state).Tame := by
  induction htame generalizing state with
  | plain htame => exact htame.ends state hfunctions
  | @task task hcontains hcode => exact hevaluator ⟨task, state⟩ ⟨hcode, hfunctions⟩
  | call hlayer ref arguments module line =>
    obtain ⟨scope, start, hscope, _⟩ := callScope_eq_value (state.store.get ref) arguments state
    have hstart := (Eval.Tame.callScope (state.store.get ref) arguments).ends state hfunctions
    rw [hscope] at hstart
    change (callFunction evaluator ref arguments module line state).Tame
    rw [callFunction_apply evaluator module line hscope]
    split
    · next cause hpush => exact ⟨hstart, CallStack.fails_push _ _ cause hpush⟩
    · next calls hpush =>
      have hready : Visit.Ready (.body (state.store.get ref) scope start calls) :=
        .block (hfunctions.body ref) hstart
      exact (hevaluator _ hready).leaveCall
  | @attempt hlayer scope body catchBlock finallyBlock hbody hcatch hfinally =>
    change (executeAttempt evaluator scope body catchBlock finallyBlock state).Tame
    rw [executeAttempt_apply]
    have hpending := hevaluator.pendingEnd scope hbody hcatch hfunctions
    unfold Evaluator.afterPending
    split
    · next block middle hmiddle =>
      have hfinished := hevaluator _
        (.scoped scope (hfinally block rfl) (hpending.functionsRun hmiddle))
      exact hpending.afterFinally hfinished
    · exact hpending
  | @bind α β first next hfirst hnext ihfirst ihnext =>
    change ((first evaluator >>= fun value => next value evaluator) state).Tame
    rw [Eval.bind_apply]
    have hend := ihfirst hfunctions
    cases h : first evaluator state with
    | value value middle =>
      rw [h] at hend
      exact ihnext value hend
    | interrupted interrupt middle =>
      rw [h] at hend
      exact hend
    | halted reason => trivial
  | rounds hrounds ih => exact ih evaluator.rounds hfunctions

/-- With a tame evaluator, a tame construct asks only for code that can be run. -/
theorem ready_of_asks (htame : Construct.Tame layer construct) (hevaluator : evaluator.Tame)
    (hfunctions : state.store.FunctionsRun) {visit : Visit}
    (hasks : Asks construct evaluator state visit) : visit.Ready := by
  induction htame generalizing state with
  | plain htame => exact absurd hasks (ignores_const _ _ _ _).not_asks
  | @task task hcontains hcode =>
    rw [asks_perform_iff.mp hasks]
    exact ⟨hcode, hfunctions⟩
  | call hlayer ref arguments module line =>
    obtain ⟨scope, start, hscope, _⟩ := callScope_eq_value (state.store.get ref) arguments state
    have hstart := (Eval.Tame.callScope (state.store.get ref) arguments).ends state hfunctions
    rw [hscope] at hstart
    obtain ⟨calls, _, rfl⟩ := (asks_callFunction_iff hscope).mp hasks
    exact .block (hfunctions.body ref) hstart
  | @attempt hlayer scope body catchBlock finallyBlock hbody hcatch hfinally =>
    rcases asks_executeAttempt_iff.mp hasks with
      (rfl | ⟨interrupt, middle, block, hend, rfl, rfl⟩) | ⟨middle, block, hmiddle, rfl, rfl⟩
    · exact .scoped scope hbody hfunctions
    · have hmiddle := hevaluator _ (.scoped scope hbody hfunctions)
      rw [hend] at hmiddle
      exact .handling (hcatch block rfl) hmiddle.1
    · have hpending := hevaluator.pendingEnd scope hbody hcatch hfunctions
      exact .scoped scope (hfinally block rfl) (hpending.functionsRun hmiddle)
  | @bind α β first next hfirst hnext ihfirst ihnext =>
    rcases hfirst.composed.asks_bind_iff.mp hasks with hasks | ⟨value, middle, hvalue, hasks⟩
    · exact ihfirst hfunctions hasks
    · have hmiddle := hfirst.ends hevaluator hfunctions
      rw [hvalue] at hmiddle
      exact ihnext value hmiddle hasks
  | rounds hrounds ih => exact ih evaluator.rounds hfunctions hasks

section Parts

/-- An expression inside an expression or a statement. -/
theorem expression (hlayer : layer ≠ .block) (scope : Scope) {part : Expression}
    (hcode : (SyntaxNode.expression part).Runs) :
    Construct.Tame layer fun evaluator => evaluator.expression scope part :=
  @task layer (.expression scope part) (by
    cases layer with
    | block => exact absurd rfl hlayer
    | _ => trivial) (allRun_singleton.mpr hcode)

/-- The statements of a block inside a statement. -/
theorem block (scope : Scope) {statements : List Statement}
    (hcode : AllRun (statements.map .statement)) :
    Construct.Tame .form fun evaluator => evaluator.block scope statements :=
  @task .form (.block scope statements) trivial hcode

/-- A choice between two constructs. -/
theorem ite {condition : Prop} [Decidable condition] {first second : Construct α}
    (hfirst : Construct.Tame layer first) (hsecond : Construct.Tame layer second) :
    Construct.Tame layer fun evaluator =>
      if condition then first evaluator else second evaluator := by
  by_cases h : condition
  · simpa only [if_pos h] using hfirst
  · simpa only [if_neg h] using hsecond

end Parts

section Expressions

/-- Expressions that can be run, one after the other. -/
theorem expressions (scope : Scope) {parts : List Expression}
    (hcode : AllRun (parts.map .expression)) :
    Construct.Tame .expression fun evaluator => parts.mapM (evaluator.expression scope) := by
  induction parts with
  | nil =>
    simp only [List.mapM_nil]
    exact plain (.pure _)
  | cons first others ih =>
    obtain ⟨hfirst, hothers⟩ := allRun_cons.mp hcode
    simp only [List.mapM_cons]
    exact bind (expression (by simp) scope hfirst) fun value => bind (ih hothers) fun values =>
      plain (.pure _)

/-- The entries of a dictionary literal. -/
theorem evaluateEntries (scope : Scope) (entries : OrderedMap Value)
    {literal : List DictionaryEntry} (hcode : AllRun (literal.map .entry)) :
    Construct.Tame .expression fun evaluator =>
      Kestrel.evaluateEntries evaluator scope entries literal := by
  induction literal generalizing entries with
  | nil => exact plain (.pure _)
  | cons entry others ih =>
    obtain ⟨hentry, hothers⟩ := allRun_cons.mp hcode
    have hvalue := allRun_singleton.mp hentry.inside
    exact bind (expression (by simp) scope hvalue) fun value => ih _ hothers

/-- The fields of a struct literal. -/
theorem evaluateFields (scope : Scope) (template : StructTemplate) (fields : OrderedMap Value)
    {literal : List StructField} (hcode : AllRun (literal.map .field)) :
    Construct.Tame .expression fun evaluator =>
      Kestrel.evaluateFields evaluator scope template fields literal := by
  induction literal generalizing fields with
  | nil => exact plain (.pure _)
  | cons field others ih =>
    obtain ⟨hfield, hothers⟩ := allRun_cons.mp hcode
    have hvalue := (allRun_cons.mp (allRun_cons.mp hfield.inside).2).1
    exact ite (bind (expression (by simp) scope hvalue) fun value => ih _ hothers)
      (plain (.fail (by simp [Cause.Ordinary])))

/-- A struct literal finds its struct, and its fields make the object. -/
theorem evaluateStructLiteral (scope : Scope) {target : Expression} {fields : List StructField}
    (htarget : (SyntaxNode.expression target).Runs) (hfields : AllRun (fields.map .field)) :
    Construct.Tame .expression fun evaluator =>
      Kestrel.evaluateStructLiteral evaluator scope target fields := by
  unfold Kestrel.evaluateStructLiteral
  refine bind (expression (by simp) scope htarget) fun value => ?_
  cases value with
  | struct ref =>
    exact bind (plain (.view _)) fun template => bind (evaluateFields _ _ _ hfields) fun values =>
      bind (plain (.newCell (by simp) _)) fun object => plain (.pure _)
  | _ => exact plain (.fail (by simp [Cause.Ordinary]))

/-- An operator with two operands, of which the second one may be left out. -/
theorem evaluateBinary (host : Host) (scope : Scope) {left right : Expression}
    (operator : BinaryOperator) (hleft : (SyntaxNode.expression left).Runs)
    (hright : (SyntaxNode.expression right).Runs) : Construct.Tame .expression fun evaluator =>
      Kestrel.evaluateBinary host evaluator scope left operator right := by
  unfold Kestrel.evaluateBinary
  have hright : Construct.Tame .expression fun evaluator => evaluator.expression scope right :=
    expression (by simp) scope hright
  have htruth : Construct.Tame .expression fun evaluator => (do
      return .bool (← Eval.lift (← evaluator.expression scope right).toBool) : Eval Value) :=
    bind hright fun value => bind (plain (.lift value.fails_toBool)) fun truth => plain (.pure _)
  refine bind (expression (by simp) scope hleft) fun leftValue => ?_
  have hdecides := leftValue.fails_toBool
  split
  · exact bind (plain (.lift hdecides)) fun truth => ite htruth (plain (.pure _))
  · exact bind (plain (.lift hdecides)) fun truth => ite (plain (.pure _)) htruth
  · exact bind hright fun rightValue => plain (.applyBinary _ _ _)

/-- A call of a value: of a program's function or of a native one. -/
theorem callValue (callee : Value) (arguments : List Value) (module : String) (line : Nat) :
    Construct.Tame .expression fun evaluator =>
      Kestrel.callValue evaluator callee arguments module line := by
  cases callee with
  | native ref => exact plain (.callNative _ _)
  | function ref => exact call rfl _ _ _ _
  | _ => exact plain (.fail (by simp [Cause.Ordinary]))

/-- The bounds of a slice, as far as they are given. -/
theorem evaluateBounds (scope : Scope) {start stop : Option Expression}
    (hstart : AllRun (start.map .expression).toList)
    (hstop : AllRun (stop.map .expression).toList) : Construct.Tame .expression fun evaluator =>
      Kestrel.evaluateBounds evaluator scope start stop := by
  have hbound {bound : Expression} (hcode : AllRun [.expression bound]) :
      Construct.Tame .expression fun evaluator => evaluator.expression scope bound :=
    expression (by simp) scope (allRun_singleton.mp hcode)
  cases start with
  | none =>
    cases stop with
    | none => exact plain (.pure _)
    | some stop => exact bind (hbound hstop) fun last => plain (.pure _)
  | some start =>
    cases stop with
    | none => exact bind (hbound hstart) fun first => plain (.pure _)
    | some stop =>
      exact bind (hbound hstart) fun first => bind (hbound hstop) fun last => plain (.pure _)

/-- Every expression that can be run. -/
theorem evaluateExpression (host : Host) (scope : Scope) {part : Expression}
    (hcode : (SyntaxNode.expression part).Runs) : Construct.Tame .expression fun evaluator =>
      Kestrel.evaluateExpression host evaluator scope part := by
  have hpart {inner : Expression} (hinside : (SyntaxNode.expression inner).Runs) :
      Construct.Tame .expression fun evaluator => evaluator.expression scope inner :=
    expression (by simp) scope hinside
  have hinside : AllRun (part.form.inside part.span) := hcode.inside
  unfold Kestrel.evaluateExpression
  cases hform : part.form with
  | number value => exact plain (.pure _)
  | string value => exact plain (.pure _)
  | boolean value => exact plain (.pure _)
  | nothing => exact plain (.pure _)
  | identifier name =>
    have hname : (Eval.viewOrFail fun store => scope.lookup store name).Tame :=
      .viewOrFail fun _ => scope.fails_lookup name
    exact plain hname
  | array elements =>
    rw [hform] at hinside
    exact bind (expressions scope hinside) fun values => plain (.newArray _)
  | dictionary entries =>
    rw [hform] at hinside
    exact bind (evaluateEntries _ _ hinside) fun values =>
      bind (plain (.newCell (by simp) _)) fun made => plain (.pure _)
  | structLiteral target fields =>
    rw [hform] at hinside
    obtain ⟨htarget, hfields⟩ := allRun_cons.mp hinside
    exact evaluateStructLiteral _ htarget hfields
  | function parameters body =>
    rw [hform] at hinside
    have hbody := allRun_singleton.mp (allRun_append.mp hinside).2
    exact bind (plain (.newFunction hbody)) fun made => plain (.pure _)
  | binary left operator right =>
    rw [hform] at hinside
    obtain ⟨hleft, hright⟩ := allRun_cons.mp hinside
    exact evaluateBinary _ _ _ hleft (allRun_singleton.mp hright)
  | unary operator operand =>
    rw [hform] at hinside
    exact bind (hpart (allRun_singleton.mp hinside)) fun value =>
      plain (.lift (fails_applyUnary _ _))
  | ternary condition thenValue elseValue =>
    rw [hform] at hinside
    obtain ⟨hcondition, hvalues⟩ := allRun_cons.mp hinside
    obtain ⟨hthen, helse⟩ := allRun_cons.mp hvalues
    exact bind (hpart hcondition) fun value => bind (plain (.lift value.fails_toBool)) fun truth =>
      ite (hpart hthen) (hpart (allRun_singleton.mp helse))
  | call callee arguments =>
    rw [hform] at hinside
    obtain ⟨hcallee, harguments⟩ := allRun_cons.mp hinside
    exact bind (expressions scope harguments) fun values =>
      bind (hpart hcallee) fun called => callValue _ _ _ _
  | member object property =>
    rw [hform] at hinside
    exact bind (hpart (allRun_cons.mp hinside).1) fun value => plain (.getProperty _ _)
  | index object index =>
    rw [hform] at hinside
    obtain ⟨hobject, hindex⟩ := allRun_cons.mp hinside
    exact bind (hpart hobject) fun value => bind (hpart (allRun_singleton.mp hindex)) fun place =>
      plain (.viewOrFail fun _ => fails_indexValue _ _)
  | slice object start stop =>
    rw [hform] at hinside
    obtain ⟨hobject, hbounds⟩ := allRun_cons.mp hinside
    obtain ⟨hstart, hstop⟩ := allRun_append.mp hbounds
    exact bind (hpart hobject) fun object => bind (evaluateBounds scope hstart hstop)
      fun arguments => bind (plain (.getProperty _ _)) fun method => callValue _ _ _ _

end Expressions

section Forms

/-- A block in a scope of its own. -/
theorem executeScoped (scope : Scope) {body : Block} (hcode : (SyntaxNode.block body).Runs) :
    Construct.Tame .form fun evaluator => Kestrel.executeScoped evaluator scope body :=
  bind (plain (.newScope _)) fun inner => block inner hcode.inside

/-- An assignment to something that can be assigned to. -/
theorem executeAssignment (scope : Scope) {target value : Expression} (operator : AssignOperator)
    (hassignable : target.form.isAssignable) (htarget : (SyntaxNode.expression target).Runs)
    (hvalue : (SyntaxNode.expression value).Runs) : Construct.Tame .form fun evaluator =>
      Kestrel.executeAssignment evaluator scope target operator value := by
  have hpart {part : Expression} (hinside : (SyntaxNode.expression part).Runs) :
      Construct.Tame .form fun evaluator => evaluator.expression scope part :=
    expression (by simp) scope hinside
  have hinside : AllRun (target.form.inside target.span) := htarget.inside
  unfold Kestrel.executeAssignment
  cases hform : target.form with
  | identifier name =>
    have hcurrent : (Eval.viewOrFail fun store => scope.lookup store name).Tame :=
      .viewOrFail fun _ => scope.fails_lookup name
    exact bind (hpart hvalue) fun given => bind (plain (.assignedValue _ _ hcurrent)) fun written =>
      plain (.assignName _ _ _)
  | index object index =>
    rw [hform] at hinside
    obtain ⟨hobject, hindex⟩ := allRun_cons.mp hinside
    exact bind (hpart hobject) fun changed => bind (hpart (allRun_singleton.mp hindex)) fun place =>
      bind (hpart hvalue) fun given =>
        bind (plain (.assignedValue _ _ (.viewOrFail fun _ => fails_indexValue _ _))) fun written =>
          plain (.assignIndex _ _ _)
  | member object property =>
    rw [hform] at hinside
    exact bind (hpart (allRun_cons.mp hinside).1) fun changed => bind (hpart hvalue) fun given =>
      bind (plain (.assignedValue _ _ (.getProperty _ _))) fun written =>
        plain (.assignMember _ _ _)
  | _ =>
    rw [hform] at hassignable
    contradiction

/-- The branches of an `if`, up to the first one whose condition is true. -/
theorem executeBranches (scope : Scope) {otherwise : Option Block} {branches : List Branch}
    (hbranches : AllRun (branches.map .branch))
    (hotherwise : AllRun (otherwise.map .block).toList) :
    Construct.Tame .form fun evaluator =>
      Kestrel.executeBranches evaluator scope otherwise branches := by
  induction branches with
  | nil =>
    cases otherwise with
    | none => exact plain (.pure _)
    | some block => exact executeScoped scope (allRun_singleton.mp hotherwise)
  | cons branch others ih =>
    obtain ⟨hbranch, hothers⟩ := allRun_cons.mp hbranches
    obtain ⟨hcondition, hbody⟩ := allRun_cons.mp hbranch.inside
    exact bind (expression (by simp) scope hcondition) fun value =>
      bind (plain (.lift value.fails_toBool)) fun truth =>
        ite (executeScoped scope (allRun_singleton.mp hbody)) (ih hothers)

/-- A loop, as many rounds as there may be. -/
theorem executeLoop (scope : Scope) {body : Block} (hcode : (SyntaxNode.block body).Runs)
    (rounds : Nat) : Construct.Tame .form fun evaluator =>
      Kestrel.executeLoop evaluator scope body rounds := by
  induction rounds with
  | zero => exact plain (.halt _)
  | succ rounds ih =>
    refine bind (executeScoped scope hcode) fun signal => ?_
    cases signal with
    | value value => exact ih
    | returned value => exact plain (.pure _)
    | exit exit =>
      cases exit with
      | breaking => exact plain (.pure _)
      | continuing => exact ih

/-- The rounds of an iteration, each with its entry bound. -/
theorem executeRounds (scope : Scope) (index : Option Identifier) (item : Identifier)
    {body : Block} (hcode : (SyntaxNode.block body).Runs) (entries : List (Value × Value)) :
    Construct.Tame .form fun evaluator =>
      Kestrel.executeRounds evaluator scope index item body entries := by
  induction entries with
  | nil => exact plain (.pure _)
  | cons entry others ih =>
    refine bind (plain (.iterationScope _ _ _ _)) fun inner =>
      bind (block inner hcode.inside) fun signal => ?_
    cases signal with
    | value value => exact ih
    | returned value => exact plain (.pure _)
    | exit exit =>
      cases exit with
      | breaking => exact plain (.pure _)
      | continuing => exact ih

/-- An import brings in the program of a module, which was parsed. -/
theorem executeImport {host : Host} (scope : Scope) (declaration : ImportDeclaration)
    (hlibraries : host.FailsOrdinarily) : Construct.Tame .form fun evaluator =>
      Kestrel.executeImport host evaluator scope declaration := by
  unfold Kestrel.executeImport
  cases hfound : host.libraries.find? fun library => library.name = declaration.path with
  | some library =>
    exact plain (.importLibrary _ (hlibraries library (List.mem_of_find?_eq_some hfound) _))
  | none =>
    refine bind (plain (.loadModule _ _ _)) fun source =>
      bind (plain (.recordImport _ _)) fun _ => ?_
    have hruns := runs_parseProgram source.source (some source.key)
    cases hprogram : parseProgram source.source (some source.key) with
    | error error => exact plain (.fail (by simp [Cause.Ordinary]))
    | ok program =>
      have hruns := hruns program hprogram
      exact bind (plain (.openScope _ _)) fun inner =>
        bind (bind (block inner hruns.inside) fun _ => plain (.programValue _)) fun _ =>
          bind (plain (.view _)) fun members => bind (plain (.newCell (by simp) _)) fun made =>
            plain (.bindName _ _ _)

/-- Every form of statement that can be run. -/
theorem executeForm {host : Host} (hlibraries : host.FailsOrdinarily) (scope : Scope)
    {form : StatementForm} (hcode : AllRun form.nodes) : Construct.Tame .form fun evaluator =>
      Kestrel.executeForm host evaluator scope form := by
  have hpart {part : Expression} (hinside : (SyntaxNode.expression part).Runs) :
      Construct.Tame .form fun evaluator => evaluator.expression scope part :=
    expression (by simp) scope hinside
  have hfunction {declaration : FunctionDeclaration}
      (hinside : (SyntaxNode.function declaration).Runs) :
      (SyntaxNode.block declaration.body).Runs :=
    allRun_singleton.mp (allRun_append.mp (allRun_cons.mp hinside.inside).2).2
  obtain ⟨hrunnable, hinside⟩ := StatementForm.of_allRun_nodes hcode
  unfold Kestrel.executeForm
  cases form with
  | var name value span =>
    have hvalue := allRun_singleton.mp (allRun_cons.mp hinside).2
    exact bind (hpart hvalue) fun given => bind (plain (.declareName _ _ _)) fun _ =>
      plain (.pure _)
  | assignment target operator value span =>
    obtain ⟨htarget, hvalue⟩ := allRun_cons.mp hinside
    exact bind (executeAssignment _ _ hrunnable htarget (allRun_singleton.mp hvalue)) fun _ =>
      plain (.pure _)
  | expression value =>
    exact bind (hpart (allRun_singleton.mp hinside)) fun given => plain (.pure _)
  | conditional branches otherwise span =>
    obtain ⟨hbranches, hotherwise⟩ := allRun_append.mp hinside
    exact executeBranches scope hbranches hotherwise
  | loop body span =>
    exact rounds fun count => executeLoop scope (allRun_singleton.mp hinside) count
  | forEach index item iterable body span =>
    obtain ⟨-, hrest⟩ := allRun_append.mp hinside
    obtain ⟨hiterable, hbody⟩ := allRun_cons.mp (allRun_cons.mp hrest).2
    exact bind (hpart hiterable) fun collection =>
      bind (plain (.viewOrFail fun _ => fails_iterationEntries _)) fun entries =>
        executeRounds _ _ _ (allRun_singleton.mp hbody) _
  | function declaration =>
    have hbody := hfunction (allRun_singleton.mp hinside)
    exact bind (plain (.newFunction hbody)) fun made => bind (plain (.declareName _ _ _)) fun _ =>
      plain (.pure _)
  | struct declaration => exact bind (plain (.executeStruct _ _)) fun _ => plain (.pure _)
  | method structName declaration span =>
    have hbody := hfunction (allRun_singleton.mp (allRun_cons.mp hinside).2)
    exact bind (plain (.executeMethod _ _ hbody)) fun _ => plain (.pure _)
  | attempt body catchBlock finallyBlock span =>
    obtain ⟨hbody, hclauses⟩ := allRun_cons.mp hinside
    obtain ⟨hcatch, hfinally⟩ := allRun_append.mp hclauses
    refine attempt rfl scope hbody ?_ ?_
    · rintro block rfl
      exact allRun_singleton.mp hcatch
    · rintro block rfl
      exact allRun_singleton.mp hfinally
  | returning value =>
    cases value with
    | none => exact plain (.pure _)
    | some value => exact bind (hpart (allRun_singleton.mp hinside)) fun given => plain (.pure _)
  | breaking => exact plain (.pure _)
  | continuing => exact plain (.pure _)
  | importing declaration =>
    exact bind (executeImport _ _ hlibraries) fun _ => plain (.pure _)

end Forms

/-- The statements of a block that can be run. -/
theorem executeRow (scope : Scope) (last : Value) {statements : List Statement}
    (hcode : AllRun (statements.map .statement)) : Construct.Tame .block fun evaluator =>
      Kestrel.executeRow evaluator scope last statements := by
  induction statements generalizing last with
  | nil => exact plain (.pure _)
  | cons statement others ih =>
    obtain ⟨hstatement, hothers⟩ := allRun_cons.mp hcode
    refine bind (@task .block (.statement scope statement) trivial
      (allRun_singleton.mpr hstatement)) fun signal => ?_
    cases signal with
    | value value => exact ih value hothers
    | returned value => exact plain (.pure _)
    | exit exit => exact plain (.pure _)

end Construct.Tame

end Kestrel
