import Kestrel.Number.Layout
import Kestrel.Syntax.Tree
import Kestrel.Text.Quoted

/-!
# Outlines

The full view of a syntax tree, with every field and every span, one item to a line.
-/

namespace Kestrel

/-- A tree of records, tuples and lists. -/
inductive Outline where
  | leaf (text : String)
  | record (name : String) (fields : List (String × Outline))
  | tuple (name : String) (items : List Outline)
  | list (items : List Outline)
  deriving Inhabited

namespace Outline

/-- A new line with the indentation of a nesting depth. -/
def newLine (depth : Nat) : List Char := '\n' :: List.replicate (4 * depth) ' '

mutual

/-- The text of an outline inside `depth` others. -/
def render (depth : Nat) : Outline → List Char
  | .leaf text => text.toList
  | .record name fields => name.toList ++ ' ' :: '\x7b' :: renderFields depth fields
  | .tuple name items => name.toList ++ '(' :: renderItems depth ')' items
  | .list [] => ['[', ']']
  | .list items => '[' :: renderItems depth ']' items

/-- The fields of a record and its closing brace. -/
def renderFields (depth : Nat) : List (String × Outline) → List Char
  | [] => newLine depth ++ ['\x7d']
  | (label, value) :: others =>
    newLine (depth + 1) ++ label.toList ++ ':' :: ' ' :: (value.render (depth + 1)
      ++ ',' :: renderFields depth others)

/-- The items of a list or tuple and what closes it. -/
def renderItems (depth : Nat) (close : Char) : List Outline → List Char
  | [] => newLine depth ++ [close]
  | item :: others =>
    newLine (depth + 1) ++ (item.render (depth + 1) ++ ',' :: renderItems depth close others)

end

/-- A whole number. -/
def nat (n : Nat) : Outline := .leaf (toString n)

/-- Text, quoted. -/
def text (s : String) : Outline := .leaf (quoted s)

/-- Something that may be missing. -/
def option : Option Outline → Outline
  | none => .leaf "None"
  | some outline => .tuple "Some" [outline]

end Outline

/-- The outline of a span. -/
def Span.outline (span : Span) : Outline :=
  .record "Span" [("start", .nat span.start), ("end", .nat span.stop), ("line", .nat span.line)]

/-- The outline of an identifier. -/
def Identifier.outline (identifier : Identifier) : Outline :=
  .record "Identifier" [("name", .text identifier.name), ("span", identifier.span.outline)]

/-- The outline of a list of identifiers. -/
def identifiersOutline (identifiers : List Identifier) : Outline :=
  .list (identifiers.map Identifier.outline)

/-- The outline of a struct declaration. -/
def StructDeclaration.outline (declaration : StructDeclaration) : Outline :=
  .record "StructDeclaration" [("name", declaration.name.outline),
    ("properties", identifiersOutline declaration.properties), ("span", declaration.span.outline)]

/-- The outline of an import. -/
def ImportDeclaration.outline (declaration : ImportDeclaration) : Outline :=
  .record "ImportStatement" [("path", .text declaration.path),
    ("alias", .option (declaration.alias?.map Identifier.outline)),
    ("span", declaration.span.outline)]

mutual

/-- The outline of a block. -/
def Block.outline : Block → Outline
  | ⟨statements, span⟩ =>
    .record "Block" [("statements", .list (statementOutlines statements)), ("span", span.outline)]

/-- The outline of a block that may be missing. -/
def optionalBlockOutline : Option Block → Outline
  | none => .option none
  | some block => .option (some block.outline)

/-- The outlines of several statements. -/
def statementOutlines : List Statement → List Outline
  | [] => []
  | statement :: others => statement.outline :: statementOutlines others

/-- The outline of a statement. -/
def Statement.outline : Statement → Outline
  | ⟨form, span⟩ => .record "Statement" [("kind", form.outline), ("span", span.outline)]

/-- The outline of a statement of some kind. -/
def StatementForm.outline : StatementForm → Outline
  | .var name value span =>
    .tuple "Var" [.record "VarDeclaration" [("name", name.outline), ("value", value.outline),
      ("span", span.outline)]]
  | .assignment target operator value span =>
    .tuple "Assignment" [.record "Assignment" [("target", target.outline),
      ("operator", .leaf operator.name), ("value", value.outline), ("span", span.outline)]]
  | .expression value => .tuple "Expression" [value.outline]
  | .conditional branches otherwise span =>
    .tuple "If" [.record "IfStatement" [("branches", .list (branchOutlines branches)),
      ("else_block", optionalBlockOutline otherwise), ("span", span.outline)]]
  | .loop body span =>
    .tuple "Loop" [.record "LoopStatement" [("body", body.outline), ("span", span.outline)]]
  | .forEach index item iterable body span =>
    .tuple "For" [.record "ForStatement" [("index", .option (index.map Identifier.outline)),
      ("item", item.outline), ("iterable", iterable.outline), ("body", body.outline),
      ("span", span.outline)]]
  | .function declaration => .tuple "Function" [declaration.outline]
  | .struct declaration => .tuple "Struct" [declaration.outline]
  | .method structName function span =>
    .tuple "Method" [.record "MethodDeclaration" [("struct_name", structName.outline),
      ("function", function.outline), ("span", span.outline)]]
  | .attempt body catchBlock finallyBlock span =>
    .tuple "Try" [.record "TryStatement" [("body", body.outline),
      ("catch_block", optionalBlockOutline catchBlock),
      ("finally_block", optionalBlockOutline finallyBlock), ("span", span.outline)]]
  | .returning value => .tuple "Return" [optionalExpressionOutline value]
  | .breaking => .leaf "Break"
  | .continuing => .leaf "Continue"
  | .importing declaration => .tuple "Import" [declaration.outline]

/-- The outlines of the branches of an `if`. -/
def branchOutlines : List Branch → List Outline
  | [] => []
  | ⟨condition, body, span⟩ :: others =>
    .record "ConditionalBranch" [("condition", condition.outline), ("body", body.outline),
      ("span", span.outline)] :: branchOutlines others

/-- The outline of a named function. -/
def FunctionDeclaration.outline : FunctionDeclaration → Outline
  | ⟨name, parameters, body, span⟩ =>
    .record "FunctionDeclaration" [("name", name.outline),
      ("parameters", identifiersOutline parameters), ("body", body.outline),
      ("span", span.outline)]

/-- The outline of an expression. -/
def Expression.outline : Expression → Outline
  | ⟨form, span⟩ =>
    .record "Expression" [("kind", form.outline span.outline), ("span", span.outline)]

/-- The outline of an expression that may be missing. -/
def optionalExpressionOutline : Option Expression → Outline
  | none => .option none
  | some expression => .option (some expression.outline)

/-- The outlines of several expressions. -/
def expressionOutlines : List Expression → List Outline
  | [] => []
  | expression :: others => expression.outline :: expressionOutlines others

/-- The outline of an expression of some kind, with the outline of its span. -/
def ExpressionForm.outline (span : Outline) : ExpressionForm → Outline
  | .number value => .tuple "Number" [.leaf (NumberLayout.outline.format value)]
  | .string value => .tuple "String" [.text value]
  | .boolean value => .tuple "Boolean" [.leaf (if value then "true" else "false")]
  | .nothing => .leaf "Nothing"
  | .identifier name =>
    .tuple "Identifier" [.record "Identifier" [("name", .text name), ("span", span)]]
  | .array elements => .tuple "Array" [.list (expressionOutlines elements)]
  | .dictionary entries => .tuple "Dictionary" [.list (entryOutlines entries)]
  | .structLiteral target fields =>
    .tuple "StructLiteral" [.record "StructLiteral" [("target", target.outline),
      ("fields", .list (fieldOutlines fields)), ("span", span)]]
  | .function parameters body =>
    .tuple "Function" [.record "FunctionLiteral" [("parameters", identifiersOutline parameters),
      ("body", body.outline), ("span", span)]]
  | .binary left operator right =>
    .tuple "Binary" [.record "BinaryOperation" [("left", left.outline),
      ("operator", .leaf operator.name), ("right", right.outline), ("span", span)]]
  | .unary operator operand =>
    .tuple "Unary" [.record "UnaryOperation" [("operator", .leaf operator.name),
      ("operand", operand.outline), ("span", span)]]
  | .ternary condition thenValue elseValue =>
    .tuple "Ternary" [.record "TernaryExpression" [("condition", condition.outline),
      ("then_value", thenValue.outline), ("else_value", elseValue.outline), ("span", span)]]
  | .call callee arguments =>
    .tuple "Call" [.record "CallExpression" [("callee", callee.outline),
      ("arguments", .list (expressionOutlines arguments)), ("span", span)]]
  | .member object property =>
    .tuple "Member" [.record "MemberAccess" [("object", object.outline),
      ("property", property.outline), ("span", span)]]
  | .index object index =>
    .tuple "Index" [.record "IndexAccess" [("object", object.outline), ("index", index.outline),
      ("span", span)]]
  | .slice object start stop =>
    .tuple "Slice" [.record "SliceAccess" [("object", object.outline),
      ("start", optionalExpressionOutline start), ("end", optionalExpressionOutline stop),
      ("span", span)]]

/-- The outlines of the entries of a dictionary literal. -/
def entryOutlines : List DictionaryEntry → List Outline
  | [] => []
  | ⟨key, value, span⟩ :: others =>
    .record "DictionaryEntry" [("key", .text key), ("value", value.outline),
      ("span", span.outline)] :: entryOutlines others

/-- The outlines of the fields of a struct literal. -/
def fieldOutlines : List StructField → List Outline
  | [] => []
  | ⟨name, value, span⟩ :: others =>
    .record "StructField" [("name", name.outline), ("value", value.outline),
      ("span", span.outline)] :: fieldOutlines others

end

/-- The outline of a program. -/
def Program.outline (program : Program) : Outline :=
  .record "Program" [("statements", .list (statementOutlines program.statements)),
    ("source_file", .option (program.sourceFile.map .text)), ("span", program.span.outline)]

/-- The text of an outline. -/
def Outline.format (outline : Outline) : String := String.ofList (outline.render 0)

end Kestrel
