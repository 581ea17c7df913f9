import Kestrel.Proofs.Eval.Visit
import Kestrel.Proofs.Native.Failure
import Mathlib.Tactic.SplitIfs

/-!
# Logic with and without short circuit

By default a logical operator evaluates both of its operands, and with short circuit only the left
one if that decides. Either way, what a tree of such operators evaluates to is told by what its
operands evaluate to. So the two ways can be compared: where the default way gives a value, the
other one gives the same.
-/

namespace Kestrel

/-- Expressions that are joined by `and` and `or` and negated by `not`. -/
inductive LogicTree where
  | operand (expression : Expression)
  | not (body : LogicTree) (span : Span)
  | and (left right : LogicTree) (span : Span)
  | or (left right : LogicTree) (span : Span)

/-- The same surroundings with short circuit or without. -/
def Host.withShortCircuit (host : Host) (shortCircuit : Bool) : Host := { host with shortCircuit }

/-- The truth value of two operands of which the left one decides if it is `decisive`. -/
def weighTruths (decisive : Bool) (left : Value) (right : Except Cause Value) :
    Except Cause Value :=
  match left.toBool with
  | .error cause => .error cause
  | .ok truth =>
    if truth = decisive then .ok (.bool decisive) else (right.bind Value.toBool).map .bool

/-- The truth value of two operands. With short circuit, a right one that has no value does not
matter if the left one decides. -/
def joinTruths (shortCircuit decisive : Bool) (left right : Except Cause Value) :
    Except Cause Value := do
  let leftValue ← left
  if shortCircuit then weighTruths decisive leftValue right
  else weighTruths decisive leftValue (.ok (← right))

namespace LogicTree

/-- The tree as an expression. -/
def expression : LogicTree → Expression
  | operand expression => expression
  | not body span => ⟨.unary .not body.expression, span⟩
  | and left right span => ⟨.binary left.expression .and right.expression, span⟩
  | or left right span => ⟨.binary left.expression .or right.expression, span⟩

/-- The operands, from left to right. -/
def operands : LogicTree → List Expression
  | operand expression => [expression]
  | not body _ => body.operands
  | and left right _ => left.operands ++ right.operands
  | or left right _ => left.operands ++ right.operands

/-- How many operators are around an operand at most. -/
def height : LogicTree → Nat
  | operand _ => 0
  | not body _ => body.height + 1
  | and left right _ => max left.height right.height + 1
  | or left right _ => max left.height right.height + 1

/-- What the tree evaluates to, by what its operands evaluate to. -/
def outcome (shortCircuit : Bool) (given : Expression → Value) : LogicTree → Except Cause Value
  | operand expression => .ok (given expression)
  | not body _ => body.outcome shortCircuit given >>= applyUnary .not
  | and left right _ =>
    joinTruths shortCircuit false (left.outcome shortCircuit given)
      (right.outcome shortCircuit given)
  | or left right _ =>
    joinTruths shortCircuit true (left.outcome shortCircuit given)
      (right.outcome shortCircuit given)

end LogicTree

section Truths

variable {decisive : Bool} {left right left' right' : Except Cause Value} {value : Value}
  {cause : Cause}

/-- Where the default way gives a value, short circuit gives the same one. -/
theorem joinTruths_shortCircuit (hleft : ∀ {v}, left = .ok v → left' = .ok v)
    (hright : ∀ {v}, right = .ok v → right' = .ok v)
    (hvalue : joinTruths false decisive left right = .ok value) :
    joinTruths true decisive left' right' = .ok value := by
  cases hl : left with
  | error cause => rw [hl] at hvalue; cases hvalue
  | ok leftValue =>
    cases hr : right with
    | error cause => rw [hl, hr] at hvalue; cases hvalue
    | ok rightValue =>
      rw [hl, hr] at hvalue
      rw [hleft hl, hright hr]
      exact hvalue

/-- A truth value is missing only if an operand has none. -/
theorem weighTruths_toBool_error {leftValue : Value}
    (hcause : (weighTruths decisive leftValue right).bind Value.toBool = .error cause) :
    leftValue.toBool = .error cause ∨ right.bind Value.toBool = .error cause := by
  unfold weighTruths at hcause
  cases htruth : leftValue.toBool with
  | error other =>
    simp only [htruth] at hcause
    cases hcause
    exact .inl rfl
  | ok truth =>
    simp only [htruth] at hcause
    split_ifs at hcause
    · cases hcause
    · right
      cases hright : right.bind Value.toBool with
      | error other =>
        rw [hright] at hcause
        cases hcause
        rfl
      | ok given =>
        rw [hright] at hcause
        cases hcause

/-- In both ways, a truth value is missing only if an operand has none. -/
theorem joinTruths_toBool_error {shortCircuit : Bool}
    (hcause : (joinTruths shortCircuit decisive left right).bind Value.toBool = .error cause) :
    left.bind Value.toBool = .error cause ∨ right.bind Value.toBool = .error cause := by
  cases left with
  | error other =>
    cases hcause
    exact .inl rfl
  | ok leftValue =>
    cases shortCircuit with
    | true => exact weighTruths_toBool_error hcause
    | false =>
      cases right with
      | error other =>
        cases hcause
        exact .inr rfl
      | ok rightValue => exact weighTruths_toBool_error hcause

end Truths

/-- An operator that joins truth values, and the left operand by which it is decided. -/
inductive Joins : BinaryOperator → Bool → Prop
  | and : Joins .and false
  | or : Joins .or true

/-- A look at the store is what the store says. -/
theorem Eval.viewOrFail_eq_lift {α : Type} (f : Store → Except Cause α) (state : State) :
    viewOrFail f state = lift (f state.store) state := by
  unfold viewOrFail
  cases f state.store <;> rfl

/-- The operator on two values. -/
theorem operate_joins {operator : BinaryOperator} {decisive : Bool}
    (hjoins : Joins operator decisive) (left right : Value) (store : Store) :
    operate store operator left right = weighTruths decisive left (.ok right) := by
  unfold weighTruths
  cases hjoins with
  | and =>
    simp only [operate]
    cases left.toBool with
    | error cause => rfl
    | ok truth => cases truth <;> rfl
  | or =>
    simp only [operate]
    cases left.toBool with
    | error cause => rfl
    | ok truth => cases truth <;> rfl

/-- What an operator between two operands gives is what joins their truth values. -/
theorem evaluateBinary_joins {host : Host} {evaluator : Evaluator} {scope : Scope} {state : State}
    {left right : Expression} {operator : BinaryOperator} {decisive : Bool}
    {leftOutcome rightOutcome : Except Cause Value} (hjoins : Joins operator decisive)
    (hleft : evaluator.expression scope left state = Eval.lift leftOutcome state)
    (hright : evaluator.expression scope right state = Eval.lift rightOutcome state) :
    evaluateBinary host evaluator scope left operator right state =
      Eval.lift (joinTruths host.shortCircuit decisive leftOutcome rightOutcome) state := by
  unfold evaluateBinary
  cases leftOutcome with
  | error cause => exact Eval.bind_of_interrupted hleft _
  | ok leftValue =>
    rw [Eval.bind_of_value hleft]
    cases host.shortCircuit with
    | false =>
      cases rightOutcome with
      | error cause => cases hjoins <;> exact Eval.bind_of_interrupted hright _
      | ok rightValue =>
        have happly : applyBinary operator leftValue rightValue state =
            Eval.lift (weighTruths decisive leftValue (.ok rightValue)) state := by
          rw [← operate_joins hjoins leftValue rightValue state.store,
            ← Eval.viewOrFail_eq_lift (operate · operator leftValue rightValue) state]
          cases hjoins <;> rfl
        cases hjoins <;> exact (Eval.bind_of_value hright _).trans happly
    | true =>
      change _ = Eval.lift (weighTruths decisive leftValue rightOutcome) state
      unfold weighTruths
      cases leftValue.toBool with
      | error cause => cases hjoins <;> rfl
      | ok truth =>
        have hright' : (evaluator.expression scope right >>= fun given =>
            Eval.lift given.toBool >>= fun truth => pure (Value.bool truth)) state =
              Eval.lift ((rightOutcome.bind Value.toBool).map .bool) state := by
          cases rightOutcome with
          | error cause => exact Eval.bind_of_interrupted hright _
          | ok given =>
            rw [Eval.bind_of_value hright]
            change _ = Eval.lift (given.toBool.map Value.bool) state
            cases given.toBool <;> rfl
        cases hjoins <;> cases truth <;> first | rfl | exact hright'

namespace LogicTree

variable {host : Host} {scope : Scope} {state : State} {given : Expression → Value} {least : Nat}

/-- With enough steps, a tree is evaluated to what its operands tell. -/
theorem evaluate_eq (tree : LogicTree)
    (hoperands : ∀ part ∈ tree.operands, ∀ steps ≥ least,
      (Evaluator.ofSteps host steps).expression scope part state = .value (given part) state)
    {steps : Nat} (hsteps : least + tree.height ≤ steps) :
    (Evaluator.ofSteps host steps).expression scope tree.expression state =
      Eval.lift (tree.outcome host.shortCircuit given) state := by
  induction tree generalizing steps with
  | operand part => exact hoperands part (List.mem_singleton_self part) steps hsteps
  | not body span ih =>
    obtain ⟨steps, rfl⟩ := Nat.exists_eq_add_one_of_ne_zero (Nat.ne_zero_of_lt hsteps)
    have hbody := ih hoperands (Nat.le_of_succ_le_succ hsteps)
    change ((Evaluator.ofSteps host steps).expression scope body.expression >>= fun value =>
      Eval.lift (applyUnary .not value)) state = _
    rw [outcome]
    cases hvalue : body.outcome host.shortCircuit given with
    | error cause =>
      rw [hvalue] at hbody
      exact Eval.bind_of_interrupted hbody _
    | ok value =>
      rw [hvalue] at hbody
      exact Eval.bind_of_value hbody _
  | and left right span ihLeft ihRight =>
    obtain ⟨steps, rfl⟩ := Nat.exists_eq_add_one_of_ne_zero (Nat.ne_zero_of_lt hsteps)
    simp only [height] at hsteps
    apply evaluateBinary_joins .and
    · exact ihLeft (fun part hpart => hoperands part (List.mem_append_left _ hpart)) (by omega)
    · exact ihRight (fun part hpart => hoperands part (List.mem_append_right _ hpart)) (by omega)
  | or left right span ihLeft ihRight =>
    obtain ⟨steps, rfl⟩ := Nat.exists_eq_add_one_of_ne_zero (Nat.ne_zero_of_lt hsteps)
    simp only [height] at hsteps
    apply evaluateBinary_joins .or
    · exact ihLeft (fun part hpart => hoperands part (List.mem_append_left _ hpart)) (by omega)
    · exact ihRight (fun part hpart => hoperands part (List.mem_append_right _ hpart)) (by omega)

/-- Where the default way gives a value, short circuit gives the same one. -/
theorem outcome_shortCircuit (tree : LogicTree) {value : Value}
    (hvalue : tree.outcome false given = .ok value) : tree.outcome true given = .ok value := by
  induction tree generalizing value with
  | operand part => exact hvalue
  | not body span ih =>
    rw [outcome] at hvalue ⊢
    cases hbody : body.outcome false given with
    | error cause =>
      rw [hbody] at hvalue
      cases hvalue
    | ok inner =>
      rw [hbody] at hvalue
      rw [ih hbody]
      exact hvalue
  | and left right span ihLeft ihRight => exact joinTruths_shortCircuit ihLeft ihRight hvalue
  | or left right span ihLeft ihRight => exact joinTruths_shortCircuit ihLeft ihRight hvalue

/-- A tree has no truth value only if one of its operands converts to none. -/
theorem exists_operand_of_error {shortCircuit : Bool} (tree : LogicTree) {cause : Cause}
    (hcause : (tree.outcome shortCircuit given).bind Value.toBool = .error cause) :
    ∃ part ∈ tree.operands, (given part).toBool = .error cause := by
  induction tree with
  | operand part => exact ⟨part, List.mem_singleton_self part, hcause⟩
  | not body span ih =>
    apply ih
    rw [outcome] at hcause
    cases hbody : body.outcome shortCircuit given with
    | error other =>
      rw [hbody] at hcause
      exact hcause
    | ok inner =>
      rw [hbody] at hcause
      change (applyUnary .not inner).bind Value.toBool = .error cause at hcause
      change inner.toBool = .error cause
      unfold applyUnary at hcause
      cases htruth : inner.toBool with
      | error other =>
        rw [htruth] at hcause
        cases hcause
        rfl
      | ok truth =>
        rw [htruth] at hcause
        cases hcause
  | and left right span ihLeft ihRight =>
    rcases joinTruths_toBool_error hcause with hleft | hright
    · obtain ⟨part, hpart, herror⟩ := ihLeft hleft
      exact ⟨part, List.mem_append_left _ hpart, herror⟩
    · obtain ⟨part, hpart, herror⟩ := ihRight hright
      exact ⟨part, List.mem_append_right _ hpart, herror⟩
  | or left right span ihLeft ihRight =>
    rcases joinTruths_toBool_error hcause with hleft | hright
    · obtain ⟨part, hpart, herror⟩ := ihLeft hleft
      exact ⟨part, List.mem_append_left _ hpart, herror⟩
    · obtain ⟨part, hpart, herror⟩ := ihRight hright
      exact ⟨part, List.mem_append_right _ hpart, herror⟩

end LogicTree

/-- Short circuit takes no value away. Let every operand of a tree of logical operators evaluate to
the same value with short circuit and without, and change nothing, given enough steps. If the tree
has a value without short circuit, it has the same value with it, and the state stays as it was; so
it fails with short circuit only if it fails without. Conversely, a value with short circuit is the
value without, unless it fails there, and then because of an operand that does not convert to a
truth value. -/
theorem shortCircuit_keeps_value (host : Host) (scope : Scope) (state : State) (tree : LogicTree)
    (given : Expression → Value) (least : Nat)
    (hoperands : ∀ part ∈ tree.operands, ∀ shortCircuit, ∀ steps ≥ least,
      (Evaluator.ofSteps (host.withShortCircuit shortCircuit) steps).expression scope part state =
        .value (given part) state)
    {steps : Nat} (hsteps : least + tree.height ≤ steps) :
    let evaluate (shortCircuit : Bool) : Result Value :=
      (Evaluator.ofSteps (host.withShortCircuit shortCircuit) steps).expression scope
        tree.expression state
    (∀ value after, evaluate false = .value value after →
      evaluate true = .value value after ∧ after = state) ∧
      (∀ interrupt after, evaluate true = .interrupted interrupt after →
        ∃ other, evaluate false = .interrupted other after) ∧
      ∀ value after, evaluate true = .value value after →
        evaluate false = .value value after ∨
          ∃ part ∈ tree.operands, ∃ cause, (given part).toBool = .error cause ∧
            evaluate false = .interrupted (.error (.ofCause cause)) after := by
  intro evaluate
  have hevaluate : ∀ shortCircuit,
      evaluate shortCircuit = Eval.lift (tree.outcome shortCircuit given) state :=
    fun shortCircuit =>
      tree.evaluate_eq (fun part hpart => hoperands part hpart shortCircuit) hsteps
  cases hdefault : tree.outcome false given with
  | ok value =>
    have hshort := tree.outcome_shortCircuit hdefault
    have hfalse : evaluate false = .value value state := by
      rw [hevaluate, hdefault]
      rfl
    have htrue : evaluate true = .value value state := by
      rw [hevaluate, hshort]
      rfl
    rw [hfalse, htrue]
    refine ⟨?_, ?_, ?_⟩
    · intro other after hother
      cases hother
      exact ⟨rfl, rfl⟩
    · intro interrupt after hinterrupt
      cases hinterrupt
    · intro other after hother
      exact .inl hother
  | error cause =>
    have hfalse : evaluate false = .interrupted (.error (.ofCause cause)) state := by
      rw [hevaluate, hdefault]
      rfl
    have hcause : (tree.outcome false given).bind Value.toBool = .error cause := by
      rw [hdefault]
      rfl
    obtain ⟨part, hpart, hconverts⟩ := tree.exists_operand_of_error hcause
    have hstays : ∀ shortCircuit after, (evaluate shortCircuit).after? = some after →
        after = state := by
      intro shortCircuit after hafter
      rw [hevaluate] at hafter
      cases houtcome : tree.outcome shortCircuit given <;> rw [houtcome] at hafter <;>
        cases hafter <;> rfl
    refine ⟨?_, ?_, ?_⟩
    · intro value after hvalue
      rw [hfalse] at hvalue
      cases hvalue
    · intro interrupt after hinterrupt
      obtain rfl := hstays true after (by rw [hinterrupt]; rfl)
      exact ⟨_, hfalse⟩
    · intro value after hvalue
      obtain rfl := hstays true after (by rw [hvalue]; rfl)
      exact .inr ⟨part, hpart, cause, hconverts, hfalse⟩

/-- A false left operand decides, whatever stands on the right. -/
theorem false_and_nothing_either_way :
    let host := Settings.default.host (.fromMemory [])
    let state := Settings.default.initialState .empty
    let scope := (Scope.ofMain state.store "main").1
    let left : Expression := ⟨.boolean false, default⟩
    let right : Expression := ⟨.nothing, default⟩
    let tree := LogicTree.and (.operand left) (.operand right) default
    ∀ shortCircuit,
      (Evaluator.ofSteps (host.withShortCircuit shortCircuit) 2).expression scope tree.expression
        state = .value (.bool false) state := by
  intro host state scope left right tree
  let given (part : Expression) : Value :=
    if part.form.tag = "nothing" then .nothing else .bool false
  have hoperands : ∀ part ∈ tree.operands, ∀ shortCircuit, ∀ steps ≥ 1,
      (Evaluator.ofSteps (host.withShortCircuit shortCircuit) steps).expression scope part state =
        .value (given part) state := by
    intro part hpart shortCircuit steps hsteps
    obtain ⟨steps, rfl⟩ := Nat.exists_eq_add_one_of_ne_zero (Nat.ne_zero_of_lt hsteps)
    rcases List.mem_cons.mp hpart with rfl | hpart
    · rfl
    · obtain rfl := List.mem_singleton.mp hpart
      rfl
  have hkeeps := shortCircuit_keeps_value host scope state tree given 1 hoperands (Nat.le_refl 2)
  have hdefault : (Evaluator.ofSteps (host.withShortCircuit false) 2).expression scope
      tree.expression state = .value (.bool false) state := rfl
  intro shortCircuit
  cases shortCircuit with
  | false => exact hdefault
  | true => exact (hkeeps.1 _ _ hdefault).1

end Kestrel
