import Kestrel.Proofs.Discipline.Visit

/-!
# Expressions under a discipline

Every expression respects every discipline in a scope that the program may know: what its parts give
the program may know, and so it may know what they make.
-/

namespace Kestrel

namespace StructTemplate

variable {template : StructTemplate}

/-- The fields of a new object are the properties of its struct. -/
theorem mem_keys_blankFields {name : String} :
    name ∈ template.blankFields.keys ↔ name ∈ template.properties := by
  simp [blankFields, OrderedMap.mem_keys_ofList]

/-- If no property is declared twice, they are in the order of the declaration. -/
theorem keys_blankFields (hnodup : template.properties.Nodup) :
    template.blankFields.keys = template.properties := by
  have hkeys : (template.properties.map fun property => (property, Value.nothing)).map Prod.fst =
      template.properties := by
    simp [Function.comp_def]
  unfold blankFields
  rw [OrderedMap.keys_ofList_of_nodup (by rwa [hkeys]), hkeys]

end StructTemplate

namespace Discipline

variable {D : Discipline} {evaluator : Evaluator} {state : State} {store : Store} {scope : Scope}

section Expressions

variable (htrusts : D.Trusts evaluator) (hscope : D.Knows state.store scope)

include htrusts hscope

/-- Several expressions in a row. -/
theorem Respects.expressions (parts : List Expression) :
    D.Respects evaluator state (fun e => parts.mapM (e.expression scope)) D.Knows := by
  induction parts generalizing state with
  | nil =>
    simp only [List.mapM_nil]
    exact plain (.pure knows_nil)
  | cons first others ih =>
    simp only [List.mapM_cons]
    refine bind (expression htrusts hscope first) fun value middle hmiddle hvalue => ?_
    refine bind (ih (hscope.later hmiddle)) fun values after hafter hvalues => plain (.pure ?_)
    exact knows_cons.mpr ⟨hvalue.later hafter, hvalues⟩

/-- The entries of a dictionary literal. -/
theorem Respects.evaluateEntries {entries : OrderedMap Value}
    (hentries : D.Knows state.store entries) (literal : List DictionaryEntry) :
    D.Respects evaluator state
      (fun e => Kestrel.evaluateEntries e scope entries literal) D.Knows := by
  induction literal generalizing entries state with
  | nil => exact plain (.pure hentries)
  | cons entry others ih =>
    exact bind (expression htrusts hscope entry.value) fun value middle hmiddle hvalue =>
      ih (hscope.later hmiddle) ((hentries.later hmiddle).insert hvalue)

/-- The fields of a struct literal: no field is added to those that the struct declares. -/
theorem Respects.evaluateFields (template : StructTemplate) {fields : OrderedMap Value}
    (hfields : D.Knows state.store fields) (hkeys : fields.keys = template.blankFields.keys)
    (literal : List StructField) :
    D.Respects evaluator state
      (fun e => Kestrel.evaluateFields e scope template fields literal)
      fun store made => D.Knows store made ∧ made.keys = template.blankFields.keys := by
  induction literal generalizing fields state with
  | nil => exact plain (.pure ⟨hfields, hkeys⟩)
  | cons field others ih =>
    unfold Kestrel.evaluateFields
    by_cases hdeclared : field.name.name ∈ template.properties
    · have hkey : field.name.name ∈ fields.keys := by
        rw [hkeys]
        exact StructTemplate.mem_keys_blankFields.mpr hdeclared
      simp only [if_pos hdeclared]
      exact bind (expression htrusts hscope field.value) fun value middle hmiddle hvalue =>
        ih (hscope.later hmiddle) ((hfields.later hmiddle).insert hvalue)
          ((OrderedMap.keys_insert_of_mem hkey value).trans hkeys)
    · simp only [if_neg hdeclared]
      exact plain (.fail _)

omit htrusts hscope in
/-- The fields of an object of which none is set. -/
theorem knows_blankFields (template : StructTemplate) : D.Knows store template.blankFields := by
  refine knows_ofList fun entry hentry => ?_
  obtain ⟨property, _, rfl⟩ := List.mem_map.mp hentry
  exact knows_value_nothing

/-- A struct literal. -/
theorem Respects.evaluateStructLiteral (target : Expression) (fields : List StructField) :
    D.Respects evaluator state
      (fun e => Kestrel.evaluateStructLiteral e scope target fields) D.Knows := by
  unfold Kestrel.evaluateStructLiteral
  refine bind (expression htrusts hscope target) fun value middle hmiddle hvalue => ?_
  cases value with
  | struct ref =>
    have href := knows_value_struct.mp hvalue
    refine of_holds fun hholds => afterView (bind (evaluateFields htrusts (hscope.later hmiddle) _
      (knows_blankFields _) rfl fields) fun values after hafter hvalues => plain ?_)
    have hmade : D.Knows after.store (⟨ref, values⟩ : Instance) :=
      knows_instance.mpr ⟨D.admits_later hafter.2 href, hvalues.1⟩
    have hfits : CellKind.Fits (D.Known after.store) .object ⟨ref, values⟩ :=
      ⟨_, ⟨middle.store, ⟨hholds, hafter.2⟩, href, rfl⟩, hvalues.2⟩
    exact .bind (.newCell (by simp) hmade hfits) fun _ _ _ hobject => .pure hobject
  | _ => exact plain (.fail _)

/-- An operator between two operands. -/
theorem Respects.evaluateBinary (host : Host) (left : Expression) (operator : BinaryOperator)
    (right : Expression) :
    D.Respects evaluator state
      (fun e => Kestrel.evaluateBinary host e scope left operator right) D.Knows := by
  unfold Kestrel.evaluateBinary
  refine bind (expression htrusts hscope left) fun leftValue middle hmiddle hleft => ?_
  have htruth {after : State} (hafter : D.Passes middle.store after.store) :
      D.Respects evaluator after (fun e => (do
        return .bool (← Eval.lift (← e.expression scope right).toBool) : Eval Value)) D.Knows := by
    refine bind (expression htrusts (hscope.later (hmiddle.trans hafter)) right)
      fun value last _ hvalue => plain ?_
    exact .bind (.truth _) fun _ _ _ _ => .pure (knows_value_bool _)
  split
  · exact bind (plain (.truth _)) fun truth after hafter _ =>
      ite (htruth hafter) (plain (.pure (knows_value_bool _)))
  · exact bind (plain (.truth _)) fun truth after hafter _ =>
      ite (plain (.pure (knows_value_bool _))) (htruth hafter)
  · exact bind (expression htrusts (hscope.later hmiddle) right) fun other after hafter hright =>
      plain (.applyBinary (hleft.later hafter) hright _)

omit hscope in
/-- A call of any value. -/
theorem Respects.callValue {callee : Value} {arguments : List Value}
    (hcallee : D.Knows state.store callee) (harguments : D.Knows state.store arguments)
    (module : String) (line : Nat) :
    D.Respects evaluator state
      (fun e => Kestrel.callValue e callee arguments module line) D.Knows := by
  cases callee with
  | native ref => exact plain (.callNative (knows_value_native.mp hcallee) harguments)
  | function ref => exact callFunction htrusts (knows_value_function.mp hcallee) harguments _ _
  | _ => exact plain (.fail _)

/-- The bounds of a slice. -/
theorem Respects.evaluateBounds (start stop : Option Expression) :
    D.Respects evaluator state
      (fun e => Kestrel.evaluateBounds e scope start stop) D.Knows := by
  cases start with
  | none =>
    cases stop with
    | none => exact plain (.pure (by simp))
    | some stop =>
      exact bind (expression htrusts hscope stop) fun last _ _ hlast =>
        plain (.pure (by simpa using hlast))
  | some start =>
    cases stop with
    | none =>
      exact bind (expression htrusts hscope start) fun first _ _ hfirst =>
        plain (.pure (by simpa using hfirst))
    | some stop =>
      refine bind (expression htrusts hscope start) fun first middle hmiddle hfirst => ?_
      exact bind (expression htrusts (hscope.later hmiddle) stop) fun last after hafter hlast =>
        plain (.pure (by simpa using ⟨hfirst.later hafter, hlast⟩))

/-- A slice. -/
theorem Respects.evaluateSlice (object : Expression) (start stop : Option Expression)
    (line : Nat) :
    D.Respects evaluator state
      (fun e => Kestrel.evaluateSlice e scope object start stop line) D.Knows := by
  refine bind (expression htrusts hscope object) fun sliced middle hmiddle hsliced => ?_
  refine bind (evaluateBounds htrusts (hscope.later hmiddle) start stop)
    fun arguments after hafter harguments => ?_
  refine bind (plain (.getProperty (hsliced.later hafter) "slice"))
    fun method last hlast hmethod => ?_
  exact callValue htrusts hmethod (harguments.later hlast) _ _

omit htrusts in
/-- What a name means. -/
theorem Obeys.lookup (name : String) :
    D.Obeys state (Eval.viewOrFail fun store => scope.lookup store name) D.Knows := by
  refine viewOrFail fun hholds value hvalue => ?_
  obtain ⟨ref, hmem, hget⟩ := Scope.lookup_eq_ok hvalue
  exact (knows_bindings hholds (hscope.admits_of_mem hmem)).get? hget

omit htrusts in
/-- A new function with the scope that it is made in. -/
theorem Obeys.newFunction (name? : Option String) (parameters : List Identifier) (body : Block)
    (owner? : Option String) :
    D.Obeys state (Eval.newCell .function (makeClosure scope name? parameters body owner?))
      D.Knows := by
  have hclosure : D.Knows state.store (makeClosure scope name? parameters body owner?) :=
    knows_closure.mpr ⟨hscope, knows_none⟩
  exact newCell (by simp) hclosure trivial

/-- Every expression. -/
theorem Respects.evaluateExpression (host : Host) (part : Expression) :
    D.Respects evaluator state (fun e => Kestrel.evaluateExpression host e scope part) D.Knows := by
  unfold Kestrel.evaluateExpression
  cases part.form with
  | number value => exact plain (.pure (knows_value_number _))
  | string value => exact plain (.pure (knows_value_string _))
  | boolean value => exact plain (.pure (knows_value_bool _))
  | nothing => exact plain (.pure knows_value_nothing)
  | identifier name => exact plain (.lookup hscope name)
  | array elements =>
    exact bind (expressions htrusts hscope elements) fun _ _ _ hvalues => plain (.newArray hvalues)
  | dictionary entries =>
    exact bind (evaluateEntries htrusts hscope knows_empty entries) fun _ _ _ hentries =>
      plain (.bind (.newCell (by simp) hentries trivial) fun _ _ _ hmade => .pure hmade)
  | structLiteral target fields => exact evaluateStructLiteral htrusts hscope target fields
  | function parameters body =>
    exact plain (.bind (.newFunction hscope none parameters body none) fun _ _ _ hmade =>
      .pure hmade)
  | binary left operator right => exact evaluateBinary htrusts hscope host left operator right
  | unary operator operand =>
    exact bind (expression htrusts hscope operand) fun value _ _ _ =>
      plain (.lift (gives_applyUnary operator value))
  | ternary condition thenValue elseValue =>
    refine bind (expression htrusts hscope condition) fun value middle hmiddle _ => ?_
    refine bind (plain (.truth _)) fun truth after hafter _ => ?_
    have hlater := hscope.later (hmiddle.trans hafter)
    exact ite (expression htrusts hlater thenValue) (expression htrusts hlater elseValue)
  | call callee arguments =>
    refine bind (expressions htrusts hscope arguments) fun values middle hmiddle hvalues => ?_
    refine bind (expression htrusts (hscope.later hmiddle) callee)
      fun called after hafter hcalled => ?_
    exact callValue htrusts hcalled (hvalues.later hafter) _ _
  | member object property =>
    exact bind (expression htrusts hscope object) fun value _ _ hvalue =>
      plain (.getProperty hvalue property.name)
  | index object index =>
    refine bind (expression htrusts hscope object) fun value middle hmiddle hvalue => ?_
    refine bind (expression htrusts (hscope.later hmiddle) index) fun place after hafter _ => ?_
    exact plain (.viewOrFail fun hholds => gives_indexValue hholds (hvalue.later hafter) place)
  | slice object start stop => exact evaluateSlice htrusts hscope object start stop _

end Expressions

end Discipline

end Kestrel
