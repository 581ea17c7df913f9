/-!
# The rules of the grammar

Every named rule that can appear in a match tree or in a list of alternatives. The order of the
constructors is the order in which a syntax error lists what it would have accepted.
-/

namespace Kestrel

/-- The named rules of the language's grammar. -/
inductive Rule where
  | endOfInput
  | reserved
  | kwVar | kwFn | kwStruct | kwIf | kwElseif | kwElse | kwLoop | kwFor | kwIn | kwTry | kwCatch
  | kwFinally | kwReturn | kwBreak | kwContinue | kwImport | kwAs
  | identifier
  | program | singleExpression | block | statement
  | varDeclaration | functionDeclaration | parameterList | structDeclaration | methodDeclaration
  | ifStatement | elseifClause | elseClause | loopStatement | forStatement
  | tryStatement | catchClause | finallyClause
  | returnStatement | breakStatement | continueStatement | importStatement
  | assignment | opAssign | opAssignAdd | opAssignSubtract | opAssignMultiply | opAssignDivide
  | expressionStatement
  | expression | ternaryTail | binaryExpr | opNegate | opNot
  | opOr | opAnd | opEqual | opNotEqual | opLessEqual | opGreaterEqual | opLess | opGreater
  | opAdd | opSubtract | opMultiply | opDivide | opModulo
  | postfixExpr | callArguments | memberAccess | indexAccess | sliceBounds | sliceStart | sliceEnd
  | number | string | stringContent | boolean | nothing
  | functionLiteral | structLiteral | structPath | structField
  | array | dictionary | dictionaryEntry
  deriving DecidableEq, Repr, Inhabited

namespace Rule

/-- The place of a rule in lists of alternatives. -/
def rank (rule : Rule) : Nat := rule.ctorIdx

/-- What a syntax error calls the rule. -/
def description : Rule → String
  | number => "a number"
  | string => "a string"
  | stringContent => "string contents"
  | boolean => "a boolean"
  | nothing => "`nothing`"
  | array => "an array"
  | dictionary | dictionaryEntry => "a dictionary"
  | structLiteral | structPath | structField => "a struct literal"
  | functionLiteral => "a function literal"
  | identifier => "an identifier"
  | reserved => "a keyword"
  | expression | singleExpression | binaryExpr | postfixExpr => "an expression"
  | ternaryTail => "`?`"
  | callArguments => "an argument list"
  | memberAccess => "`.`"
  | indexAccess | sliceBounds | sliceStart | sliceEnd => "an index"
  | program => "a program"
  | statement | expressionStatement => "a statement"
  | block => "a block"
  | varDeclaration => "a variable declaration"
  | functionDeclaration => "a function declaration"
  | parameterList => "a parameter list"
  | structDeclaration => "a struct declaration"
  | methodDeclaration => "a method declaration"
  | ifStatement => "an if statement"
  | elseifClause => "`elseif`"
  | elseClause => "`else`"
  | loopStatement => "a loop"
  | forStatement => "a for loop"
  | tryStatement => "a try statement"
  | catchClause => "`catch`"
  | finallyClause => "`finally`"
  | returnStatement => "`return`"
  | breakStatement => "`break`"
  | continueStatement => "`continue`"
  | importStatement => "an import"
  | assignment => "an assignment"
  | kwVar => "`var`"
  | kwFn => "`fn`"
  | kwStruct => "`struct`"
  | kwIf => "`if`"
  | kwElseif => "`elseif`"
  | kwElse => "`else`"
  | kwLoop => "`loop`"
  | kwFor => "`for`"
  | kwIn => "`in`"
  | kwTry => "`try`"
  | kwCatch => "`catch`"
  | kwFinally => "`finally`"
  | kwReturn => "`return`"
  | kwBreak => "`break`"
  | kwContinue => "`continue`"
  | kwImport => "`import`"
  | kwAs => "`as`"
  | opAssign | opAssignAdd | opAssignSubtract | opAssignMultiply | opAssignDivide =>
    "an assignment operator"
  | opNegate | opNot => "a prefix operator"
  | opOr | opAnd | opEqual | opNotEqual | opLessEqual | opGreaterEqual | opLess | opGreater
  | opAdd | opSubtract | opMultiply | opDivide | opModulo => "an operator"
  | endOfInput => "end of input"

end Rule

end Kestrel
