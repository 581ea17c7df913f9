import Kestrel.Eval.Statement
import Kestrel.Proofs.Gives

/-!
# Ordinary failures

A program can fail in many ways, and only one of them is about its own text: an assignment to what
cannot be assigned to. All other failures are ordinary. This file goes through everything that works
on values and shows that it fails in ordinary ways only.
-/

namespace Kestrel

/-- Every cause of a failure but that something cannot be assigned to. -/
def Cause.Ordinary (cause : Cause) : Prop := ∀ tag, cause ≠ .notAssignable tag

variable {store : Store} {args : Arguments} {operator : BinaryOperator}

namespace Value

@[simp] theorem fails_toNumber (value : Value) : Fails (value.toNumber store) Cause.Ordinary := by
  cases value with
  | text content =>
    simp only [toNumber]
    split <;> simp [Cause.Ordinary]
  | _ => simp [toNumber, Cause.Ordinary]

@[simp] theorem fails_toBool (value : Value) : Fails value.toBool Cause.Ordinary := by
  unfold toBool
  split <;> simp [Cause.Ordinary]

end Value

section Operators

@[simp] theorem fails_resolveIndex (index : Float) (length : Nat) :
    Fails (resolveIndex index length) Cause.Ordinary := by
  unfold resolveIndex
  split
  · dsimp only
    split <;> simp [Cause.Ordinary]
  · simp [Cause.Ordinary]

@[simp] theorem fails_numericIndex (value : Value) : Fails (numericIndex value) Cause.Ordinary := by
  unfold numericIndex
  split <;> simp [Cause.Ordinary]

@[simp] theorem fails_indexValue (object index : Value) :
    Fails (indexValue store object index) Cause.Ordinary := by
  unfold indexValue
  split
  · dsimp only
    split <;> simp [Cause.Ordinary]
  · simp
  · simp
  · simp [Cause.Ordinary]

@[simp] theorem fails_arithmetic (x y : Float) :
    Fails (arithmetic operator x y) Cause.Ordinary := by
  unfold arithmetic
  split
  all_goals try split
  all_goals simp [Cause.Ordinary]

@[simp] theorem fails_operate (left right : Value) :
    Fails (operate store operator left right) Cause.Ordinary := by
  cases operator with
  | and | or =>
    refine .bind left.fails_toBool fun truth => ?_
    split <;> simp
  | equal | notEqual => simp [operate]
  | _ =>
    simp only [operate, operandMismatch]
    split <;> simp [Cause.Ordinary]

@[simp] theorem fails_applyUnary (operator : UnaryOperator) (operand : Value) :
    Fails (applyUnary operator operand) Cause.Ordinary := by
  unfold applyUnary
  split
  · split <;> simp [Cause.Ordinary]
  · simp

@[simp] theorem fails_iterationEntries (value : Value) :
    Fails (iterationEntries store value) Cause.Ordinary := by
  unfold iterationEntries
  split <;> simp [Cause.Ordinary]

end Operators

namespace Arguments

@[simp] theorem fails_required (position : Nat) :
    Fails (args.required position) Cause.Ordinary := by
  unfold required
  split <;> simp [Cause.Ordinary]

@[simp] theorem fails_number (position : Nat) : Fails (args.number position) Cause.Ordinary := by
  unfold number
  refine .bind (fails_required position) fun value => ?_
  split <;> simp [Cause.Ordinary, mismatch]

@[simp] theorem fails_number? (position : Nat) : Fails (args.number? position) Cause.Ordinary := by
  unfold number?
  split <;> simp [Cause.Ordinary, mismatch]

@[simp] theorem fails_text (position : Nat) : Fails (args.text store position) Cause.Ordinary := by
  unfold text
  refine .bind (fails_required position) fun value => ?_
  split <;> simp [Cause.Ordinary, mismatch]

@[simp] theorem fails_text? (position : Nat) :
    Fails (args.text? store position) Cause.Ordinary := by
  unfold text?
  split <;> simp [Cause.Ordinary, mismatch]

@[simp] theorem fails_display (position : Nat) :
    Fails (args.display store position) Cause.Ordinary := by
  simp [display]

@[simp] theorem fails_atLeast (least : Nat) : Fails (args.atLeast least) Cause.Ordinary := by
  unfold atLeast
  split <;> simp [Cause.Ordinary]

@[simp] theorem fails_elementCount (length : Float) :
    Fails (args.elementCount length) Cause.Ordinary := by
  unfold elementCount
  split
  · simp [Cause.Ordinary]
  · split <;> simp

end Arguments

section Natives

@[simp] theorem fails_paddingOf (length : Nat) :
    Fails (paddingOf args store length) Cause.Ordinary := by
  unfold paddingOf
  refine .bind (args.fails_number 0) fun width => ?_
  refine .bind (args.fails_text? 1) fun fill => ?_
  dsimp only
  split <;> simp [Cause.Ordinary]

@[simp] theorem fails_textResult (receiver : TextValue) (method : TextMethod) :
    Fails (textResult receiver method args store) Cause.Ordinary := by
  unfold textResult
  cases method with
  | find =>
    refine .bind (args.fails_text 0) fun needle => ?_
    split <;> simp
  | _ => simp

@[simp] theorem fails_insertionPlace (index : Float) (length : Nat) :
    Fails (insertionPlace index length) Cause.Ordinary := by
  unfold insertionPlace
  split <;> simp

@[simp] theorem fails_rangeOf : Fails (rangeOf args) Cause.Ordinary := by
  unfold rangeOf
  refine .bind (args.fails_number? 1) fun stop => ?_
  split <;> simp

@[simp] theorem fails_foldNumbers (combine : Float → Float → Float) :
    Fails (foldNumbers args combine) Cause.Ordinary := by
  unfold foldNumbers
  refine .bind (args.fails_atLeast 1) fun _ => ?_
  refine .bind (fails_mapM fun position _ => args.fails_number position) fun numbers => ?_
  split <;> simp

@[simp] theorem fails_makeError : Fails (makeError args store) Cause.Ordinary := by
  unfold makeError
  refine .bind (args.fails_display 0) fun message => ?_
  refine .bind (args.fails_text? 1) fun name? => ?_
  split
  · simp
  · split <;> simp [Cause.Ordinary]

@[simp] theorem fails_checkAssertion : Fails (checkAssertion args store) Cause.Ordinary := by
  unfold checkAssertion
  refine .bind (args.fails_required 0) fun condition => ?_
  refine .bind (condition.fails_toBool) fun truth => ?_
  split <;> simp [Cause.Ordinary]

end Natives

section Names

@[simp] theorem Scope.fails_lookup (scope : Scope) (name : String) :
    Fails (scope.lookup store name) Cause.Ordinary := by
  unfold lookup
  split <;> simp [Cause.Ordinary]

@[simp] theorem Scope.fails_declarable (scope : Scope) (name : String) :
    Fails (scope.declarable store name) Cause.Ordinary := by
  unfold declarable
  split <;> simp [Cause.Ordinary]

@[simp] theorem Scope.fails_assignable (scope : Scope) (name : String) :
    Fails (scope.assignable store name) Cause.Ordinary := by
  unfold assignable
  split <;> simp [Cause.Ordinary]

@[simp] theorem ImportGraph.fails_record (graph : ImportGraph) (target importer : String) :
    Fails (graph.record target importer) Cause.Ordinary := by
  unfold record
  split
  · simp [Cause.Ordinary]
  · split <;> simp

@[simp] theorem CallStack.fails_push (calls : CallStack) (frame : Frame) :
    Fails (calls.push frame) Cause.Ordinary := by
  unfold push
  split <;> simp [Cause.Ordinary]

end Names

end Kestrel
