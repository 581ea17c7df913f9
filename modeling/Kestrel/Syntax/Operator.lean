/-!
# Operators

The operators of expressions and assignments, with their spelling and how tightly they bind.
-/

namespace Kestrel

/-- The operators between two operands. -/
inductive BinaryOperator where
  | add | subtract | multiply | divide | modulo
  | equal | notEqual | less | lessEqual | greater | greaterEqual
  | and | or
  deriving DecidableEq, Repr, Inhabited

namespace BinaryOperator

/-- How the operator is written. -/
def symbol : BinaryOperator → String
  | add => "+"
  | subtract => "-"
  | multiply => "*"
  | divide => "/"
  | modulo => "%"
  | equal => "=="
  | notEqual => "!="
  | less => "<"
  | lessEqual => "<="
  | greater => ">"
  | greaterEqual => ">="
  | and => "and"
  | or => "or"

/-- The operator's name in a syntax outline. -/
def name : BinaryOperator → String
  | add => "Add"
  | subtract => "Subtract"
  | multiply => "Multiply"
  | divide => "Divide"
  | modulo => "Modulo"
  | equal => "Equal"
  | notEqual => "NotEqual"
  | less => "Less"
  | lessEqual => "LessEqual"
  | greater => "Greater"
  | greaterEqual => "GreaterEqual"
  | and => "And"
  | or => "Or"

/-- How tightly the operator binds: the operands of a higher level are formed first, and
operators of one level group from the left. -/
def level : BinaryOperator → Nat
  | or => 1
  | and => 2
  | equal | notEqual => 3
  | less | lessEqual | greater | greaterEqual => 4
  | add | subtract => 5
  | multiply | divide | modulo => 6

end BinaryOperator

/-- The operators in front of an operand; they bind tighter than every binary one. -/
inductive UnaryOperator where
  | negate | not
  deriving DecidableEq, Repr, Inhabited

namespace UnaryOperator

/-- How the operator is written. -/
def symbol : UnaryOperator → String
  | negate => "-"
  | not => "not"

/-- The operator's name in a syntax outline. -/
def name : UnaryOperator → String
  | negate => "Negate"
  | not => "Not"

end UnaryOperator

/-- The operators of an assignment. -/
inductive AssignOperator where
  | assign | addAssign | subtractAssign | multiplyAssign | divideAssign
  deriving DecidableEq, Repr, Inhabited

namespace AssignOperator

/-- How the operator is written. -/
def symbol : AssignOperator → String
  | assign => "="
  | addAssign => "+="
  | subtractAssign => "-="
  | multiplyAssign => "*="
  | divideAssign => "/="

/-- The operator's name in a syntax outline. -/
def name : AssignOperator → String
  | assign => "Assign"
  | addAssign => "AddAssign"
  | subtractAssign => "SubtractAssign"
  | multiplyAssign => "MultiplyAssign"
  | divideAssign => "DivideAssign"

/-- What a compound assignment does with the old value; a plain one does not read it. -/
def binary? : AssignOperator → Option BinaryOperator
  | assign => none
  | addAssign => some .add
  | subtractAssign => some .subtract
  | multiplyAssign => some .multiply
  | divideAssign => some .divide

end AssignOperator

end Kestrel
