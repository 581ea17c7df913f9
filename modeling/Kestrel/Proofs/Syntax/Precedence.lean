import Kestrel.Proofs.Syntax.Node
import Kestrel.Syntax.Precedence

/-!
# The spans of operator chains

An operation covers what lies from its first operand, or the operator in front of it, to its last.
Operations are formed out of neighbours only, so at every moment the operands that wait and the one
just read are laid out in the order of the text, and so is the tree in the end.
-/

namespace Kestrel

/-- The members of a row of operands and operators between two offsets of a text. An operator
between operands keeps no span. -/
inductive RowLaid (source : String) : Nat → List RowItem → Nat → Prop
  | nil {low high : Nat} : low ≤ high → RowLaid source low [] high
  | operand {low middle high : Nat} {value : Expression} {items : List RowItem} :
      Laid source low [.expression value] middle → RowLaid source middle items high →
      RowLaid source low (.operand value :: items) high
  | unary {low high : Nat} {operator : UnaryOperator} {span : Span} {items : List RowItem} :
      low ≤ span.start → span.Fits source → RowLaid source span.stop items high →
      RowLaid source low (.unary operator span :: items) high
  | binary {low middle high : Nat} {operator : BinaryOperator} {items : List RowItem} :
      low ≤ middle → RowLaid source middle items high →
      RowLaid source low (.binary operator :: items) high

/-- Operators in front of an operand between two offsets of a text, the nearest first. -/
def PrefixLaid (source : String) (low : Nat) : List (UnaryOperator × Span) → Nat → Prop
  | [], high => low ≤ high
  | (_, span) :: operators, high =>
    PrefixLaid source low operators span.start ∧ span.Fits source ∧ span.stop ≤ high

/-- The operands that wait, in the order of the text. -/
def WaitingOperands.nodes (waiting : WaitingOperands) : List SyntaxNode :=
  waiting.reverse.map fun (left, _) => .expression left

/-- What has been read of a row up to an offset of the text. -/
def RowState.Laid (source : String) (low : Nat) (waiting : WaitingOperands) (high : Nat) :
    RowState → Prop
  | .before operators =>
    ∃ middle, Kestrel.Laid source low waiting.nodes middle ∧
      PrefixLaid source middle operators high
  | .after operand => Kestrel.Laid source low (waiting.nodes ++ [.expression operand]) high

variable {source : String} {low middle high : Nat}

/-- Two neighbours become one operation. -/
theorem Laid.joinBinary {left right : Expression} (operator : BinaryOperator)
    (hlaid : Laid source low [.expression left, .expression right] high) :
    Laid source low [.expression (left.joinBinary operator right)] high :=
  hlaid.pair rfl rfl rfl

/-- An operator and the operand after it become one operation. -/
theorem Laid.applyUnary {operand : Expression} {operator : UnaryOperator} {span : Span}
    (hfits : span.Fits source) (hapart : span.stop ≤ middle)
    (hlaid : Laid source middle [.expression operand] high) :
    Laid source span.start [.expression (operand.applyUnary (operator, span))] high := by
  obtain ⟨hoperand, hle⟩ := to_last (show Laid source middle ([] ++ _) high from hlaid)
  have hspan : span.start ≤ span.stop := hfits.start_le_stop
  have hstart : middle ≤ operand.span.start := hlaid.low_le_start
  have hnonempty : operand.span.start < operand.span.stop := hlaid.nonempty rfl
  have hlast : operand.span.Fits source := hlaid.fits
  have hfits' : (span.join operand.span).Fits source := hfits.join hlast (by omega)
  refine .cons (Nat.le_refl _) hfits' (fun _ => ?_) ?_ (.nil hle)
  · change span.start < operand.span.stop
    omega
  · exact hoperand.low_le (Nat.le_trans hspan hapart)

/-- Operators laid out up to an offset are so up to a later one. -/
theorem PrefixLaid.le_high {operators : List (UnaryOperator × Span)}
    (hfront : PrefixLaid source low operators middle) (hupper : middle ≤ high) :
    PrefixLaid source low operators high := by
  cases operators with
  | nil => exact Nat.le_trans hfront hupper
  | cons => exact ⟨hfront.1, hfront.2.1, Nat.le_trans hfront.2.2 hupper⟩

/-- The operators in front of an operand are applied from the nearest outwards. -/
theorem Laid.applyOperators {operators : List (UnaryOperator × Span)} {operand : Expression}
    (hfront : PrefixLaid source low operators middle)
    (hlaid : Laid source middle [.expression operand] high) :
    Laid source low [.expression (operators.foldl Expression.applyUnary operand)] high := by
  induction operators generalizing middle operand with
  | nil => exact hlaid.low_le hfront
  | cons operator operators ih =>
    obtain ⟨hothers, hfits, hle⟩ := hfront
    exact ih hothers (hlaid.applyUnary hfits hle)

@[simp] theorem WaitingOperands.nodes_cons (left : Expression) (operator : BinaryOperator)
    (waiting : WaitingOperands) :
    nodes ((left, operator) :: waiting) = nodes waiting ++ [.expression left] := by
  simp [nodes]

/-- Closing operations leaves the operands that wait and the last one laid out. -/
theorem Laid.closeOperations (level : Nat) (waiting : WaitingOperands) (right : Expression)
    (hlaid : Laid source low (waiting.nodes ++ [.expression right]) high) :
    Laid source low ((closeOperations level waiting right).1.nodes ++
      [.expression (closeOperations level waiting right).2]) high := by
  fun_induction Kestrel.closeOperations level waiting right with
  | case1 => exact hlaid
  | case2 left operator waiting right _ ih =>
    refine ih ?_
    rw [WaitingOperands.nodes_cons, List.append_assoc] at hlaid
    obtain ⟨middle, hwaiting, hoperands⟩ := hlaid.append_inv
    exact hwaiting.append (hoperands.joinBinary operator)
  | case3 => exact hlaid

/-- Reading on in a row that is laid out gives a tree that is. -/
theorem Laid.treeOfRow? {waiting : WaitingOperands} {state : RowState} {row : List RowItem}
    {tree : Expression} (hfound : treeOfRow? waiting state row = some tree)
    (hsofar : state.Laid source low waiting middle) (hahead : RowLaid source middle row high) :
    Laid source low [.expression tree] high := by
  fun_induction Kestrel.treeOfRow? waiting state row generalizing middle with
  | case1 waiting operators operator span rest ih =>
    obtain ⟨_, hwaiting, hfront⟩ := hsofar
    cases hahead with
    | unary hle hfits hrest =>
      have hbefore := hfront.le_high hle
      exact ih hfound ⟨_, hwaiting, hbefore, hfits, Nat.le_refl _⟩ hrest
  | case2 waiting operators value rest ih =>
    obtain ⟨_, hwaiting, hfront⟩ := hsofar
    cases hahead with
    | operand hvalue hrest => exact ih hfound (hwaiting.append (hvalue.applyOperators hfront)) hrest
  | case3 waiting operand operator rest closed left hclosed ih =>
    have hclose := hsofar.closeOperations operator.level
    rw [hclosed, ← WaitingOperands.nodes_cons left operator] at hclose
    cases hahead with
    | binary hle hrest => exact ih hfound ⟨_, hclose, hle⟩ hrest
  | case4 waiting operand =>
    cases hfound
    cases hahead with
    | nil hle =>
      obtain ⟨_, hothers, htree⟩ := (hsofar.closeOperations 0).append_inv
      exact (htree.low_le hothers.low_le_high).le_high hle
  | case5 => contradiction

/-- The tree of a row covers a part of what the row covers. -/
theorem Laid.ofRow? {row : List RowItem} {tree : Expression}
    (hfound : Expression.ofRow? row = some tree) (hlaid : RowLaid source low row high) :
    Laid source low [.expression tree] high := by
  have hstart : RowState.Laid source low [] low (.before []) :=
    ⟨low, .nil (Nat.le_refl _), Nat.le_refl _⟩
  exact Laid.treeOfRow? hfound hstart hlaid

end Kestrel
