import Kestrel.Number.Layout
import Kestrel.Syntax.Tree
import Kestrel.Text.Quoted

/-!
# S-expressions

A compact view of a syntax tree: every construct is a list in parentheses that starts with the
construct's name. Blocks of several statements are set on lines of their own.
-/

namespace Kestrel

/-- A tree of words and lists. -/
inductive Sexpr where
  | atom (text : String)
  /-- Items in a row. -/
  | row (items : List Sexpr)
  /-- A headed list of items on lines of their own, indented by some blanks. -/
  | lines (head : String) (indent : Nat) (items : List Sexpr)
  deriving Repr, Inhabited

namespace Sexpr

/-- A row that starts with a word. -/
def headed (head : String) (items : List Sexpr) : Sexpr := .row (.atom head :: items)

/-- A row of names. -/
def names (identifiers : List Identifier) : Sexpr :=
  .row (identifiers.map fun identifier => .atom identifier.name)

mutual

/-- The text of an S-expression. -/
def render : Sexpr → List Char
  | .atom text => text.toList
  | .row [] => ['(', ')']
  | .row (first :: others) => '(' :: (first.render ++ renderRow others)
  | .lines head indent items => '(' :: (head.toList ++ renderLines indent items)

/-- The rest of a row: a blank before every item, and the closing parenthesis. -/
def renderRow : List Sexpr → List Char
  | [] => [')']
  | item :: others => ' ' :: (item.render ++ renderRow others)

/-- The rest of a list on lines: a new line before every item, and the closing parenthesis. -/
def renderLines (indent : Nat) : List Sexpr → List Char
  | [] => [')']
  | item :: others =>
    '\n' :: (List.replicate indent ' ' ++ (item.render ++ renderLines indent others))

end

/-- A block of statements, in a place indented by some blanks. -/
def ofStatements (indent : Nat) : List Sexpr → Sexpr
  | [] => headed "block" []
  | [only] => headed "block" [only]
  | items => .lines "block" indent items

end Sexpr

open Sexpr

mutual

/-- The S-expression of a block whose surroundings are indented by `indent` blanks. -/
def Block.sexpr (indent : Nat) : Block → Sexpr
  | ⟨statements, _⟩ => ofStatements (indent + 2) (statementSexprs (indent + 2) statements)

/-- The S-expressions of several statements. -/
def statementSexprs (indent : Nat) : List Statement → List Sexpr
  | [] => []
  | statement :: others => statement.sexpr indent :: statementSexprs indent others

/-- The S-expression of a statement in a place indented by `indent` blanks. -/
def Statement.sexpr (indent : Nat) : Statement → Sexpr
  | ⟨form, _⟩ => form.sexpr indent

/-- The S-expression of a statement of some kind. -/
def StatementForm.sexpr (indent : Nat) : StatementForm → Sexpr
  | .var name value _ => headed "var" [.atom name.name, value.sexpr]
  | .assignment target operator value _ => headed operator.symbol [target.sexpr, value.sexpr]
  | .expression value => value.sexpr
  | .conditional branches otherwise _ =>
    headed "if" (branchSexprs (indent + 2) branches
      ++ optionalBlockSexpr "else" (indent + 2) otherwise)
  | .loop body _ => headed "loop" [body.sexpr indent]
  | .forEach index item iterable body _ =>
    headed "for" [names (index.toList ++ [item]), iterable.sexpr, body.sexpr indent]
  | .function declaration => declaration.sexpr indent
  | .struct declaration =>
    headed "struct" [.atom declaration.name.name, names declaration.properties]
  | .method structName function _ =>
    headed "method" [.atom structName.name, function.sexpr indent]
  | .attempt body catchBlock finallyBlock _ =>
    headed "try" (body.sexpr (indent + 2) :: (optionalBlockSexpr "catch" (indent + 2) catchBlock
      ++ optionalBlockSexpr "finally" (indent + 2) finallyBlock))
  | .returning none => headed "return" []
  | .returning (some value) => headed "return" [value.sexpr]
  | .breaking => headed "break" []
  | .continuing => headed "continue" []
  | .importing declaration =>
    headed "import" (.atom (quoted declaration.path)
      :: declaration.alias?.toList.map fun identifier => .atom identifier.name)

/-- The S-expressions of the branches of an `if`. -/
def branchSexprs (indent : Nat) : List Branch → List Sexpr
  | [] => []
  | ⟨condition, body, _⟩ :: others =>
    headed "when" [condition.sexpr, body.sexpr indent] :: branchSexprs indent others

/-- The S-expression of a block that may be missing, under a head. -/
def optionalBlockSexpr (head : String) (indent : Nat) : Option Block → List Sexpr
  | none => []
  | some block => [headed head [block.sexpr indent]]

/-- The S-expression of a named function. -/
def FunctionDeclaration.sexpr (indent : Nat) : FunctionDeclaration → Sexpr
  | ⟨name, parameters, body, _⟩ =>
    headed "fn" [.atom name.name, names parameters, body.sexpr indent]

/-- The S-expression of an expression. -/
def Expression.sexpr : Expression → Sexpr
  | ⟨form, _⟩ => form.sexpr

/-- The S-expression of an expression of some kind. -/
def ExpressionForm.sexpr : ExpressionForm → Sexpr
  | .number value => .atom (NumberLayout.plain.format value)
  | .string value => .atom (quoted value)
  | .boolean value => .atom (if value then "true" else "false")
  | .nothing => .atom "nothing"
  | .identifier name => .atom name
  | .array elements => headed "array" (expressionSexprs elements)
  | .dictionary entries => headed "dict" (entrySexprs entries)
  | .structLiteral target fields => headed "new" (target.sexpr :: fieldSexprs fields)
  | .function parameters body => headed "fn" [names parameters, body.sexpr 0]
  | .binary left operator right => headed operator.symbol [left.sexpr, right.sexpr]
  | .unary operator operand => headed operator.symbol [operand.sexpr]
  | .ternary condition thenValue elseValue =>
    headed "?" [condition.sexpr, thenValue.sexpr, elseValue.sexpr]
  | .call callee arguments => headed "call" (callee.sexpr :: expressionSexprs arguments)
  | .member object property => headed "." [object.sexpr, .atom property.name]
  | .index object index => headed "index" [object.sexpr, index.sexpr]
  | .slice object start stop => headed "slice" [object.sexpr, boundSexpr start, boundSexpr stop]

/-- The S-expressions of several expressions. -/
def expressionSexprs : List Expression → List Sexpr
  | [] => []
  | expression :: others => expression.sexpr :: expressionSexprs others

/-- The S-expression of a bound of a slice; a missing one is an underscore. -/
def boundSexpr : Option Expression → Sexpr
  | none => .atom "_"
  | some bound => bound.sexpr

/-- The S-expressions of the entries of a dictionary literal. -/
def entrySexprs : List DictionaryEntry → List Sexpr
  | [] => []
  | ⟨key, value, _⟩ :: others => .row [.atom (quoted key), value.sexpr] :: entrySexprs others

/-- The S-expressions of the fields of a struct literal. -/
def fieldSexprs : List StructField → List Sexpr
  | [] => []
  | ⟨name, value, _⟩ :: others => .row [.atom name.name, value.sexpr] :: fieldSexprs others

end

/-- The S-expression of a program. -/
def Program.sexpr (program : Program) : Sexpr :=
  match program.statements with
  | [] => headed "program" []
  | statements => .lines "program" 2 (statementSexprs 2 statements)

/-- A program as the text of its S-expression. -/
def Program.sexprText (program : Program) : String := String.ofList program.sexpr.render

end Kestrel
