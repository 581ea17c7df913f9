import Kestrel.Syntax.Tree

/-!
# Operator precedence

A row of operands and operators becomes a tree. Operators in front of an operand bind first, then
the binary operators level by level, those of one level from the left.
-/

namespace Kestrel

/-- A member of a row of operands and operators. -/
inductive RowItem where
  | operand (value : Expression)
  | unary (operator : UnaryOperator) (span : Span)
  | binary (operator : BinaryOperator)

namespace Expression

/-- Two operands joined by an operator. -/
def joinBinary (left : Expression) (operator : BinaryOperator) (right : Expression) : Expression :=
  ⟨.binary left operator right, left.span.join right.span⟩

/-- An operator in front of an operand. -/
def applyUnary (operand : Expression) (operator : UnaryOperator × Span) : Expression :=
  ⟨.unary operator.1 operand, operator.2.join operand.span⟩

end Expression

/-- Left operands that wait for the rest of their right side, the latest first. Their levels rise
towards the latest. -/
abbrev WaitingOperands := List (Expression × BinaryOperator)

/-- Completes the waiting operations that bind at least as tightly as `level`, with `right` as the
last right operand. -/
def closeOperations (level : Nat) : WaitingOperands → Expression → WaitingOperands × Expression
  | [], right => ([], right)
  | (left, operator) :: waiting, right =>
    if level ≤ operator.level then closeOperations level waiting (left.joinBinary operator right)
    else ((left, operator) :: waiting, right)

/-- Where in a row the reader is. -/
inductive RowState where
  /-- Before an operand, with the operators in front of it, nearest first. -/
  | before (operators : List (UnaryOperator × Span))
  /-- After an operand. -/
  | after (operand : Expression)

/-- Reads a row from one of its places on; nothing if operands and operators do not alternate. -/
def treeOfRow? (waiting : WaitingOperands) : RowState → List RowItem → Option Expression
  | .before operators, .unary operator span :: rest =>
    treeOfRow? waiting (.before ((operator, span) :: operators)) rest
  | .before operators, .operand value :: rest =>
    treeOfRow? waiting (.after (operators.foldl Expression.applyUnary value)) rest
  | .after operand, .binary operator :: rest =>
    let (waiting, left) := closeOperations operator.level waiting operand
    treeOfRow? ((left, operator) :: waiting) (.before []) rest
  | .after operand, [] => some (closeOperations 0 waiting operand).2
  | _, _ => none

/-- The tree of a whole row. -/
def Expression.ofRow? (row : List RowItem) : Option Expression := treeOfRow? [] (.before []) row

end Kestrel
