import Kestrel.Source.Cursor
import Kestrel.Syntax.Operator

/-!
# Syntax trees

Programs, statements and expressions, each with the stretch of source that it covers.
-/

namespace Kestrel

/-- A name in the source. -/
structure Identifier where
  name : String
  span : Span
  deriving DecidableEq, Repr, Inhabited

/-- A struct declaration: the struct's name and its properties in order. -/
structure StructDeclaration where
  name : Identifier
  properties : List Identifier
  span : Span
  deriving DecidableEq, Repr, Inhabited

/-- An import: what is loaded and, if the program says so, the name it gets. -/
structure ImportDeclaration where
  path : String
  alias? : Option Identifier
  span : Span
  deriving DecidableEq, Repr, Inhabited

mutual

/-- Statements in braces. -/
structure Block where
  statements : List Statement
  span : Span

/-- A statement; its span takes in a semicolon after it. -/
structure Statement where
  form : StatementForm
  span : Span

/-- The kinds of statement. Where a span is kept here, it leaves out the semicolon. -/
inductive StatementForm where
  | var (name : Identifier) (value : Expression) (span : Span)
  | assignment (target : Expression) (operator : AssignOperator) (value : Expression) (span : Span)
  | expression (value : Expression)
  | conditional (branches : List Branch) (otherwise : Option Block) (span : Span)
  | loop (body : Block) (span : Span)
  | forEach (index : Option Identifier) (item : Identifier) (iterable : Expression) (body : Block)
      (span : Span)
  | function (declaration : FunctionDeclaration)
  | struct (declaration : StructDeclaration)
  | method (structName : Identifier) (function : FunctionDeclaration) (span : Span)
  | attempt (body : Block) (catchBlock finallyBlock : Option Block) (span : Span)
  | returning (value : Option Expression)
  | breaking
  | continuing
  | importing (declaration : ImportDeclaration)

/-- One condition of an `if` with the block it guards. -/
structure Branch where
  condition : Expression
  body : Block
  span : Span

/-- A named function. -/
structure FunctionDeclaration where
  name : Identifier
  parameters : List Identifier
  body : Block
  span : Span

/-- An expression; parentheses around it are not part of its span. -/
structure Expression where
  form : ExpressionForm
  span : Span

/-- The kinds of expression. -/
inductive ExpressionForm where
  | number (value : Float)
  | string (value : String)
  | boolean (value : Bool)
  | nothing
  | identifier (name : String)
  | array (elements : List Expression)
  | dictionary (entries : List DictionaryEntry)
  | structLiteral (target : Expression) (fields : List StructField)
  | function (parameters : List Identifier) (body : Block)
  | binary (left : Expression) (operator : BinaryOperator) (right : Expression)
  | unary (operator : UnaryOperator) (operand : Expression)
  | ternary (condition thenValue elseValue : Expression)
  | call (callee : Expression) (arguments : List Expression)
  | member (object : Expression) (property : Identifier)
  | index (object index : Expression)
  | slice (object : Expression) (start stop : Option Expression)

/-- An entry of a dictionary literal; its key is always text. -/
structure DictionaryEntry where
  key : String
  value : Expression
  span : Span

/-- A field of a struct literal. -/
structure StructField where
  name : Identifier
  value : Expression
  span : Span

end

/-- A whole source text: its statements, the file it came from, if any, and what it covers. -/
structure Program where
  statements : List Statement
  sourceFile : Option String
  span : Span

instance : Inhabited Expression := ⟨⟨.nothing, default⟩⟩
instance : Inhabited Block := ⟨⟨[], default⟩⟩
instance : Inhabited Statement := ⟨⟨.breaking, default⟩⟩

/-- The source line used for diagnostics. -/
def Statement.line (statement : Statement) : Nat := statement.span.line

/-- The source line used for diagnostics. -/
def Expression.line (expression : Expression) : Nat := expression.span.line

/-- The short name of the kind of statement. -/
def StatementForm.tag : StatementForm → String
  | var .. => "var"
  | assignment .. => "assign"
  | expression .. => "expr"
  | conditional .. => "if"
  | loop .. => "loop"
  | forEach .. => "for"
  | function .. => "fn"
  | struct .. => "struct"
  | method .. => "method"
  | attempt .. => "try"
  | returning .. => "return"
  | breaking => "break"
  | continuing => "continue"
  | importing .. => "import"

/-- The short name of the kind of expression. -/
def ExpressionForm.tag : ExpressionForm → String
  | number .. => "number"
  | string .. => "string"
  | boolean .. => "bool"
  | nothing => "nothing"
  | identifier .. => "ident"
  | array .. => "array"
  | dictionary .. => "dict"
  | structLiteral .. => "struct-literal"
  | function .. => "fn"
  | binary .. => "binary"
  | unary .. => "unary"
  | ternary .. => "ternary"
  | call .. => "call"
  | member .. => "member"
  | index .. => "index"
  | slice .. => "slice"

/-- The expressions that may stand on the left of an assignment. -/
def ExpressionForm.isAssignable : ExpressionForm → Bool
  | identifier .. | member .. | index .. => true
  | _ => false

namespace ImportDeclaration

/-- What follows the last separator of a path, of either kind. -/
private def lastSegment (path : List Char) : List Char :=
  (path.reverse.takeWhile fun c => c != '/' && c != '\\').reverse

/-- A segment without what follows its last dot, unless nothing would remain before the dot. -/
private def withoutExtension (segment : List Char) : List Char :=
  match (segment.reverse.dropWhile (· != '.')).reverse.dropLast with
  | [] => segment
  | stem => stem

/-- The name that the import binds: the alias, or else the last segment of the path without its
extension. -/
def bindingName (declaration : ImportDeclaration) : String :=
  match declaration.alias? with
  | some identifier => identifier.name
  | none => String.ofList (withoutExtension (lastSegment declaration.path.toList))

end ImportDeclaration

end Kestrel
