import Kestrel.Proofs.Eval.Attempt
import Kestrel.Proofs.Eval.Call

/-!
# How constructs are put together

The parts of the language's constructs are plain computations, tasks for the evaluator, calls of
functions and `try` statements. `Composed` is the closure of these parts under sequence and
repetition, and this file proves that the constructs are in it. What holds of the parts and is kept
by sequence and repetition then holds of all constructs: the first such fact, proved here, is that
a construct either asks for a visit or cannot tell that it was halted.
-/

namespace Kestrel

/-- What a construct belongs to: an expression, the form of a statement with or without blocks in
it, or a block. -/
inductive Layer where
  | expression
  | simple
  | form
  | block

/-- The tasks that each layer leaves to the evaluator. Expressions and simple statements contain
expressions, other statements contain blocks, too, and a block contains statements. -/
def Layer.Contains : Layer → Task → Prop
  | expression, .expression _ _ => True
  | simple, .expression _ _ => True
  | form, .expression _ _ => True
  | form, .block _ _ => True
  | block, .statement _ _ => True
  | _, _ => False

/-- Whether carrying out a statement takes in statements of a block of its own, or of a module. -/
def StatementForm.containsBlocks : StatementForm → Bool
  | conditional _ _ _ => true
  | loop _ _ => true
  | forEach _ _ _ _ _ => true
  | attempt _ _ _ _ => true
  | importing _ => true
  | _ => false

/-- The parts of a layer that ask an evaluator for something. -/
inductive Query : (layer : Layer) → {α : Type} → Construct α → Prop
  | task {layer : Layer} {task : Task} (hcontains : layer.Contains task) :
    Query layer fun evaluator => evaluator.perform task
  | call (ref : Ref .function) (arguments : List Value) (module : String) (line : Nat) :
    Query .expression fun evaluator => callFunction evaluator ref arguments module line
  | attempt (scope : Scope) (body : Block) (catchBlock finallyBlock : Option Block) :
    Query .form fun evaluator => executeAttempt evaluator scope body catchBlock finallyBlock

/-- The constructs that are put together from the parts of a layer. -/
inductive Composed (layer : Layer) : {α : Type} → Construct α → Prop
  | plain {α : Type} {computation : Eval α} (hplain : computation.Plain) :
    Composed layer fun _ => computation
  | query {α : Type} {construct : Construct α} (hquery : Query layer construct) :
    Composed layer construct
  | bind {α β : Type} {first : Construct α} {next : α → Construct β}
    (hfirst : Composed layer first) (hnext : ∀ value, Composed layer (next value)) :
    Composed layer fun evaluator => first evaluator >>= fun value => next value evaluator
  | rounds {α : Type} {construct : Nat → Construct α}
    (hrounds : ∀ rounds, Composed layer (construct rounds)) :
    Composed layer fun evaluator => construct evaluator.rounds evaluator

namespace Composed

variable {layer : Layer} {α : Type}

/-- A task of the layer. -/
theorem task {task : Task} (hcontains : layer.Contains task) :
    Composed layer fun evaluator => evaluator.perform task :=
  query (.task hcontains)

/-- Halting a visit either halts a construct or makes no difference to it. -/
theorem asks_or_ignores {construct : Construct α} (hcomposed : Composed layer construct)
    (evaluator : Evaluator) (state : State) (visit : Visit) :
    Asks construct evaluator state visit ∨ Ignores construct evaluator state visit := by
  induction hcomposed generalizing state with
  | plain hplain => exact .inr (ignores_const _ _ _ _)
  | query hquery =>
    cases hquery with
    | task hcontains => exact asks_or_ignores_perform _ _ _ _
    | call ref arguments module line => exact asks_or_ignores_callFunction _ _ _ _ _ _ _
    | attempt scope body catchBlock finallyBlock => exact asks_or_ignores_executeAttempt _ _ _ _
  | bind hfirst hnext ihfirst ihnext =>
    exact asks_or_ignores_bind (ihfirst state) fun value after => ihnext value after
  | rounds hrounds ih => exact ih evaluator.rounds state

/-- What a sequence asks for is asked for by one of its parts. -/
theorem asks_bind_iff {β : Type} {first : Construct α} {next : α → Construct β}
    (hfirst : Composed layer first) {evaluator : Evaluator} {state : State} {visit : Visit} :
    Asks (fun e => first e >>= fun value => next value e) evaluator state visit ↔
      Asks first evaluator state visit ∨ ∃ value after,
        first evaluator state = .value value after ∧ Asks (next value) evaluator after visit :=
  Kestrel.asks_bind_iff (hfirst.asks_or_ignores evaluator state visit)

/-- What a construct asks for is asked for by one of its parts, and what interrupts the part
interrupts the construct. -/
theorem exists_query {construct : Construct α} (hcomposed : Composed layer construct)
    {evaluator : Evaluator} {state : State} {visit : Visit}
    (hasks : Asks construct evaluator state visit) :
    ∃ (β : Type) (query : Construct β) (middle : State),
      Query layer query ∧ Asks query evaluator middle visit ∧ ∀ interrupt after,
        query evaluator middle = .interrupted interrupt after →
          construct evaluator state = .interrupted interrupt after := by
  induction hcomposed generalizing state with
  | plain hplain => exact absurd hasks (ignores_const _ _ _ _).not_asks
  | @query α construct hquery => exact ⟨α, construct, state, hquery, hasks, fun _ _ h => h⟩
  | @bind α β first next hfirst hnext ihfirst ihnext =>
    rcases hfirst.asks_bind_iff.mp hasks with hasks | ⟨value, middle, hvalue, hasks⟩
    · obtain ⟨γ, query, start, hquery, hasks, hinterrupted⟩ := ihfirst hasks
      refine ⟨γ, query, start, hquery, hasks, fun interrupt after hend => ?_⟩
      exact Eval.bind_of_interrupted (hinterrupted interrupt after hend) _
    · obtain ⟨γ, query, start, hquery, hasks, hinterrupted⟩ := ihnext value hasks
      refine ⟨γ, query, start, hquery, hasks, fun interrupt after hend => ?_⟩
      exact (Eval.bind_of_value hvalue _).trans (hinterrupted interrupt after hend)
  | rounds hrounds ih => exact ih evaluator.rounds hasks

/-- Outside of calls, a construct asks for nothing that its layer does not contain. -/
theorem contains_of_asks {construct : Construct α} (hcomposed : Composed layer construct)
    (hlayer : layer ≠ .expression) {evaluator : Evaluator} {state : State} {visit : Visit}
    (hasks : Asks construct evaluator state visit) : layer.Contains visit.task := by
  obtain ⟨β, query, middle, hquery, hasks, _⟩ := hcomposed.exists_query hasks
  cases hquery with
  | task hcontains =>
    rw [asks_perform_iff.mp hasks]
    exact hcontains
  | call ref arguments module line => exact absurd rfl hlayer
  | attempt scope body catchBlock finallyBlock =>
    obtain ⟨inner, parts, start, rfl⟩ := exists_block_of_asks_executeAttempt hasks
    trivial

/-- What a simple statement is put together from can stand in any statement. -/
theorem of_simple {construct : Construct α} (hcomposed : Composed .simple construct) :
    Composed .form construct := by
  induction hcomposed with
  | plain hplain => exact plain hplain
  | query hquery =>
    cases hquery with
    | @task _ task hcontains =>
      cases task with
      | expression scope part => exact @Composed.task .form (.expression scope part) trivial
      | statement scope part => exact hcontains.elim
      | block scope parts => exact hcontains.elim
  | bind hfirst hnext ihfirst ihnext => exact bind ihfirst ihnext
  | rounds hrounds ih => exact rounds ih

/-- An expression inside an expression or a statement. -/
theorem expression (hlayer : layer ≠ .block) (scope : Scope) (expression : Expression) :
    Composed layer fun evaluator => evaluator.expression scope expression :=
  @task layer (.expression scope expression) (by
    cases layer with
    | block => exact absurd rfl hlayer
    | _ => trivial)

/-- A block inside a statement. -/
theorem block (scope : Scope) (statements : List Statement) :
    Composed .form fun evaluator => evaluator.block scope statements :=
  @task .form (.block scope statements) trivial

/-- A choice between two constructs. -/
theorem ite {condition : Prop} [Decidable condition] {first second : Construct α}
    (hfirst : Composed layer first) (hsecond : Composed layer second) :
    Composed layer fun evaluator => if condition then first evaluator else second evaluator := by
  by_cases h : condition
  · simpa only [if_pos h] using hfirst
  · simpa only [if_neg h] using hsecond

section Expressions

/-- Several expressions in a row. -/
theorem expressions (hlayer : layer ≠ .block) (scope : Scope) (expressions : List Expression) :
    Composed layer fun evaluator => expressions.mapM (evaluator.expression scope) := by
  induction expressions with
  | nil =>
    simp only [List.mapM_nil]
    exact plain (.pure _)
  | cons first others ih =>
    simp only [List.mapM_cons]
    exact bind (expression hlayer scope first) fun value => bind ih fun values => plain (.pure _)

/-- The entries of a dictionary literal. -/
theorem evaluateEntries (scope : Scope) (entries : OrderedMap Value)
    (literal : List DictionaryEntry) : Composed .expression fun evaluator =>
      Kestrel.evaluateEntries evaluator scope entries literal := by
  induction literal generalizing entries with
  | nil => exact plain (.pure _)
  | cons entry others ih =>
    exact bind (expression (by simp) scope entry.value) fun value => ih _

/-- The fields of a struct literal. -/
theorem evaluateFields (scope : Scope) (template : StructTemplate) (fields : OrderedMap Value)
    (literal : List StructField) : Composed .expression fun evaluator =>
      Kestrel.evaluateFields evaluator scope template fields literal := by
  induction literal generalizing fields with
  | nil => exact plain (.pure _)
  | cons field others ih =>
    exact ite (bind (expression (by simp) scope field.value) fun value => ih _) (plain (.fail _))

/-- A struct literal. -/
theorem evaluateStructLiteral (scope : Scope) (target : Expression) (fields : List StructField) :
    Composed .expression fun evaluator =>
      Kestrel.evaluateStructLiteral evaluator scope target fields := by
  unfold Kestrel.evaluateStructLiteral
  refine bind (expression (by simp) scope target) fun value => ?_
  cases value with
  | struct ref =>
    exact bind (plain (.view _)) fun template => bind (evaluateFields _ _ _ _) fun values =>
      bind (plain (.newCell _ _)) fun object => plain (.pure _)
  | _ => exact plain (.fail _)

/-- An operator between two operands. -/
theorem evaluateBinary (host : Host) (scope : Scope) (left : Expression)
    (operator : BinaryOperator) (right : Expression) : Composed .expression fun evaluator =>
      Kestrel.evaluateBinary host evaluator scope left operator right := by
  unfold Kestrel.evaluateBinary
  have hright : Composed .expression fun evaluator => evaluator.expression scope right :=
    expression (by simp) scope right
  have htruth : Composed .expression fun evaluator => (do
      return .bool (← Eval.lift (← evaluator.expression scope right).toBool) : Eval Value) :=
    bind hright fun value => bind (plain (.lift _)) fun truth => plain (.pure _)
  refine bind (expression (by simp) scope left) fun leftValue => ?_
  split
  · exact bind (plain (.lift _)) fun truth => ite htruth (plain (.pure _))
  · exact bind (plain (.lift _)) fun truth => ite (plain (.pure _)) htruth
  · exact bind hright fun rightValue => plain (.applyBinary _ _ _)

/-- A call of any value. -/
theorem callValue (callee : Value) (arguments : List Value) (module : String) (line : Nat) :
    Composed .expression fun evaluator =>
      Kestrel.callValue evaluator callee arguments module line := by
  cases callee with
  | native ref => exact plain (.callNative _ _)
  | function ref => exact query (.call _ _ _ _)
  | _ => exact plain (.fail _)

/-- The bounds of a slice. -/
theorem evaluateBounds (scope : Scope) (start stop : Option Expression) :
    Composed .expression fun evaluator =>
      Kestrel.evaluateBounds evaluator scope start stop := by
  have hbound (bound : Expression) : Composed .expression fun evaluator =>
      evaluator.expression scope bound :=
    expression (by simp) scope bound
  cases start with
  | none =>
    cases stop with
    | none => exact plain (.pure _)
    | some stop => exact bind (hbound stop) fun last => plain (.pure _)
  | some start =>
    cases stop with
    | none => exact bind (hbound start) fun first => plain (.pure _)
    | some stop =>
      exact bind (hbound start) fun first => bind (hbound stop) fun last => plain (.pure _)

/-- A slice. -/
theorem evaluateSlice (scope : Scope) (object : Expression) (start stop : Option Expression)
    (line : Nat) : Composed .expression fun evaluator =>
      Kestrel.evaluateSlice evaluator scope object start stop line :=
  bind (expression (by simp) scope object) fun object => bind (evaluateBounds _ _ _)
    fun arguments => bind (plain (.getProperty _ _)) fun method => callValue _ _ _ _

/-- Every expression. -/
theorem evaluateExpression (host : Host) (scope : Scope) (expression : Expression) :
    Composed .expression fun evaluator =>
      Kestrel.evaluateExpression host evaluator scope expression := by
  have hpart (part : Expression) : Composed .expression fun evaluator =>
      evaluator.expression scope part :=
    Composed.expression (by simp) scope part
  unfold Kestrel.evaluateExpression
  cases expression.form with
  | number value => exact plain (.pure _)
  | string value => exact plain (.pure _)
  | boolean value => exact plain (.pure _)
  | nothing => exact plain (.pure _)
  | identifier name => exact plain (.viewOrFail fun store => scope.lookup store name)
  | array elements =>
    exact bind (expressions (by simp) scope elements) fun values => plain (.newArray _)
  | dictionary entries =>
    exact bind (evaluateEntries _ _ _) fun values => bind (plain (.newCell _ _))
      fun made => plain (.pure _)
  | structLiteral target fields => exact evaluateStructLiteral _ _ _
  | function parameters body =>
    exact bind (plain (.newCell _ _)) fun made => plain (.pure _)
  | binary left operator right => exact evaluateBinary _ _ _ _ _
  | unary operator operand => exact bind (hpart operand) fun value => plain (.lift _)
  | ternary condition thenValue elseValue =>
    exact bind (hpart condition) fun value => bind (plain (.lift _)) fun truth =>
      ite (hpart thenValue) (hpart elseValue)
  | call callee arguments =>
    exact bind (expressions (by simp) scope arguments) fun values =>
      bind (hpart callee) fun called => callValue _ _ _ _
  | member object property => exact bind (hpart object) fun value => plain (.getProperty _ _)
  | index object index =>
    exact bind (hpart object) fun value => bind (hpart index) fun place => plain (.viewOrFail _)
  | slice object start stop => exact evaluateSlice _ _ _ _ _

end Expressions

section Forms

/-- A block in a new scope. -/
theorem executeScoped (scope : Scope) (block : Block) :
    Composed .form fun evaluator => Kestrel.executeScoped evaluator scope block :=
  bind (plain (.newScope _)) fun inner => Composed.block inner block.statements

/-- An assignment. -/
theorem executeAssignment (scope : Scope) (target : Expression) (operator : AssignOperator)
    (value : Expression) : Composed .simple fun evaluator =>
      Kestrel.executeAssignment evaluator scope target operator value := by
  have hpart (part : Expression) : Composed .simple fun evaluator =>
      evaluator.expression scope part :=
    expression (by simp) scope part
  unfold Kestrel.executeAssignment
  cases target.form with
  | identifier name =>
    exact bind (hpart value) fun given =>
      bind (plain (.assignedValue _ _ (.viewOrFail _))) fun written => plain (.assignName _ _ _)
  | index object index =>
    exact bind (hpart object) fun changed => bind (hpart index) fun place =>
      bind (hpart value) fun given =>
        bind (plain (.assignedValue _ _ (.viewOrFail _))) fun written => plain (.assignIndex _ _ _)
  | member object property =>
    exact bind (hpart object) fun changed => bind (hpart value) fun given =>
      bind (plain (.assignedValue _ _ (.getProperty _ _))) fun written =>
        plain (.assignMember _ _ _)
  | _ => exact plain (.fail _)

/-- The branches of an `if`. -/
theorem executeBranches (scope : Scope) (otherwise : Option Block) (branches : List Branch) :
    Composed .form fun evaluator =>
      Kestrel.executeBranches evaluator scope otherwise branches := by
  induction branches with
  | nil =>
    cases otherwise with
    | none => exact plain (.pure _)
    | some block => exact executeScoped scope block
  | cons branch others ih =>
    exact bind (expression (by simp) scope branch.condition) fun value =>
      bind (plain (.lift _)) fun truth => ite (executeScoped scope branch.body) ih

/-- A loop that only its body can end. -/
theorem executeLoop (scope : Scope) (body : Block) (rounds : Nat) :
    Composed .form fun evaluator => Kestrel.executeLoop evaluator scope body rounds := by
  induction rounds with
  | zero => exact plain (.halt _)
  | succ rounds ih =>
    refine bind (executeScoped scope body) fun signal => ?_
    cases signal with
    | value value => exact ih
    | returned value => exact plain (.pure _)
    | exit exit =>
      cases exit with
      | breaking => exact plain (.pure _)
      | continuing => exact ih

/-- A loop over entries. -/
theorem executeRounds (scope : Scope) (index : Option Identifier) (item : Identifier)
    (body : Block) (entries : List (Value × Value)) : Composed .form fun evaluator =>
      Kestrel.executeRounds evaluator scope index item body entries := by
  induction entries with
  | nil => exact plain (.pure _)
  | cons entry others ih =>
    refine bind (plain (.iterationScope _ _ _ _)) fun inner =>
      bind (block inner body.statements) fun signal => ?_
    cases signal with
    | value value => exact ih
    | returned value => exact plain (.pure _)
    | exit exit =>
      cases exit with
      | breaking => exact plain (.pure _)
      | continuing => exact ih

/-- A program as a part of a statement that imports it. -/
theorem executeProgram (scope : Scope) (statements : List Statement) :
    Composed .form fun evaluator => Kestrel.executeProgram evaluator scope statements :=
  bind (block scope statements) fun _ => plain (.programValue _)

/-- An import. -/
theorem executeImport (host : Host) (scope : Scope) (declaration : ImportDeclaration) :
    Composed .form fun evaluator =>
      Kestrel.executeImport host evaluator scope declaration := by
  unfold Kestrel.executeImport
  cases host.libraries.find? fun library => library.name = declaration.path with
  | some library => exact plain (.importLibrary _ _ _)
  | none =>
    refine bind (plain (.loadModule _ _ _)) fun source =>
      bind (plain (.recordImport _ _)) fun _ => ?_
    cases parseProgram source.source (some source.key) with
    | error error => exact plain (.fail _)
    | ok program =>
      exact bind (plain (.allocate _)) fun inner =>
        bind (executeProgram inner program.statements) fun _ =>
          bind (plain (.view _)) fun members => bind (plain (.newCell _ _)) fun made =>
            plain (.bindName _ _ _)

/-- What every statement without blocks does. -/
theorem executeForm_of_blockless (host : Host) (scope : Scope) {form : StatementForm}
    (hform : form.containsBlocks = false) :
    Composed .simple fun evaluator => Kestrel.executeForm host evaluator scope form := by
  have hpart (part : Expression) : Composed .simple fun evaluator =>
      evaluator.expression scope part :=
    expression (by simp) scope part
  unfold Kestrel.executeForm
  cases form with
  | var name value _ =>
    exact bind (hpart value) fun given => bind (plain (.declareName _ _ _)) fun _ =>
      plain (.pure _)
  | assignment target operator value _ =>
    exact bind (executeAssignment _ _ _ _) fun _ => plain (.pure _)
  | expression value => exact bind (hpart value) fun given => plain (.pure _)
  | function declaration =>
    exact bind (plain (.newCell _ _)) fun made => bind (plain (.declareName _ _ _)) fun _ =>
      plain (.pure _)
  | struct declaration => exact bind (plain (.executeStruct _ _)) fun _ => plain (.pure _)
  | method structName function _ =>
    exact bind (plain (.executeMethod _ _ _)) fun _ => plain (.pure _)
  | returning value =>
    cases value with
    | none => exact plain (.pure _)
    | some value => exact bind (hpart value) fun given => plain (.pure _)
  | breaking => exact plain (.pure _)
  | continuing => exact plain (.pure _)
  | conditional _ _ _ => cases hform
  | loop _ _ => cases hform
  | forEach _ _ _ _ _ => cases hform
  | attempt _ _ _ _ => cases hform
  | importing _ => cases hform

/-- What every statement does. -/
theorem executeForm (host : Host) (scope : Scope) (form : StatementForm) :
    Composed .form fun evaluator => Kestrel.executeForm host evaluator scope form := by
  by_cases hform : form.containsBlocks = false
  · exact of_simple (executeForm_of_blockless host scope hform)
  · unfold Kestrel.executeForm
    cases form with
    | conditional branches otherwise _ => exact executeBranches _ _ _
    | loop body _ => exact rounds fun count => executeLoop scope body count
    | forEach index item iterable body _ =>
      exact bind (expression (by simp) scope iterable) fun collection =>
        bind (plain (.viewOrFail _)) fun entries => executeRounds _ _ _ _ _
    | attempt body catchBlock finallyBlock _ => exact query (.attempt _ _ _ _)
    | importing declaration => exact bind (executeImport _ _ _) fun _ => plain (.pure _)
    | _ => exact absurd rfl hform

end Forms

/-- The statements of a block. -/
theorem executeRow (scope : Scope) (last : Value) (statements : List Statement) :
    Composed .block fun evaluator => Kestrel.executeRow evaluator scope last statements := by
  induction statements generalizing last with
  | nil => exact plain (.pure _)
  | cons statement others ih =>
    refine bind (@task .block (.statement scope statement) trivial) fun signal => ?_
    cases signal with
    | value value => exact ih value
    | returned value => exact plain (.pure _)
    | exit exit => exact plain (.pure _)

end Composed

/-- A program asks for its block, in the state in which it begins, and for nothing else. -/
theorem asks_executeProgram_iff {evaluator : Evaluator} {scope : Scope}
    {statements : List Statement} {state : State} {visit : Visit} :
    Asks (fun e => executeProgram e scope statements) evaluator state visit ↔
      visit = ⟨.block scope statements, state⟩ := by
  refine (Composed.block scope statements).asks_bind_iff.trans ?_
  constructor
  · rintro (hasks | ⟨signal, middle, _, hasks⟩)
    · exact (@asks_perform_iff (.block scope statements) _ _ _).mp hasks
    · exact absurd hasks (ignores_const _ _ _ _).not_asks
  · exact fun hvisit => .inl ((@asks_perform_iff (.block scope statements) _ _ _).mpr hvisit)

end Kestrel
