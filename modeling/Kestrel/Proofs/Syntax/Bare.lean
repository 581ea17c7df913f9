import Kestrel.Proofs.Syntax.Induction
import Kestrel.Syntax.Sexpr

/-!
# Trees without places

An S-expression leaves out where things stand. Besides, it writes two pairs of things alike: a slice
bound that is the name `_` and a missing bound, and an infinite number and the name `inf`. A tree
may be bared of its spans, and such pairs may be merged at the same time: then a bound that is `_`
is missing, and an infinite number is the name.
-/

namespace Kestrel

/-- A name without its span. -/
def Identifier.bare (identifier : Identifier) : Identifier := ⟨identifier.name, default⟩

/-- Whether an expression is the name that stands for a missing bound. -/
def ExpressionForm.isBlank : ExpressionForm → Bool
  | .identifier name => name == "_"
  | _ => false

section Bare

variable (merged : Bool)

mutual

/-- A block without spans. -/
def Block.bare : Block → Block
  | ⟨statements, _⟩ => ⟨bareStatements statements, default⟩

/-- Statements without spans. -/
def bareStatements : List Statement → List Statement
  | [] => []
  | statement :: others => statement.bare :: bareStatements others

/-- A statement without spans. -/
def Statement.bare : Statement → Statement
  | ⟨form, _⟩ => ⟨form.bare, default⟩

/-- A form of statement without spans. -/
def StatementForm.bare : StatementForm → StatementForm
  | .var name value _ => .var name.bare value.bare default
  | .assignment target operator value _ => .assignment target.bare operator value.bare default
  | .expression value => .expression value.bare
  | .conditional branches otherwise _ =>
    .conditional (bareBranches branches) (bareBlock? otherwise) default
  | .loop body _ => .loop body.bare default
  | .forEach index item iterable body _ =>
    .forEach (index.map Identifier.bare) item.bare iterable.bare body.bare default
  | .function declaration => .function declaration.bare
  | .struct declaration =>
    .struct ⟨declaration.name.bare, declaration.properties.map Identifier.bare, default⟩
  | .method structName declaration _ => .method structName.bare declaration.bare default
  | .attempt body catchBlock finallyBlock _ =>
    .attempt body.bare (bareBlock? catchBlock) (bareBlock? finallyBlock) default
  | .returning value => .returning (bareValue? value)
  | .breaking => .breaking
  | .continuing => .continuing
  | .importing declaration =>
    .importing ⟨declaration.path, declaration.alias?.map Identifier.bare, default⟩

/-- Branches without spans. -/
def bareBranches : List Branch → List Branch
  | [] => []
  | branch :: others => branch.bare :: bareBranches others

/-- A branch without spans. -/
def Branch.bare : Branch → Branch
  | ⟨condition, body, _⟩ => ⟨condition.bare, body.bare, default⟩

/-- A block that may be missing, without spans. -/
def bareBlock? : Option Block → Option Block
  | none => none
  | some block => some block.bare

/-- A value that may be missing, without spans. -/
def bareValue? : Option Expression → Option Expression
  | none => none
  | some value => some value.bare

/-- A named function without spans. -/
def FunctionDeclaration.bare : FunctionDeclaration → FunctionDeclaration
  | ⟨name, parameters, body, _⟩ =>
    ⟨name.bare, parameters.map Identifier.bare, body.bare, default⟩

/-- An expression without spans. -/
def Expression.bare : Expression → Expression
  | ⟨form, _⟩ => ⟨form.bare, default⟩

/-- A form of expression without spans. -/
def ExpressionForm.bare : ExpressionForm → ExpressionForm
  | .number value =>
    if merged && Binary.ofFloat value = .infinite false then .identifier "inf" else .number value
  | .string value => .string value
  | .boolean value => .boolean value
  | .nothing => .nothing
  | .identifier name => .identifier name
  | .array elements => .array (bareExpressions elements)
  | .dictionary entries => .dictionary (bareEntries entries)
  | .structLiteral target fields => .structLiteral target.bare (bareFields fields)
  | .function parameters body => .function (parameters.map Identifier.bare) body.bare
  | .binary left operator right => .binary left.bare operator right.bare
  | .unary operator operand => .unary operator operand.bare
  | .ternary condition thenValue elseValue =>
    .ternary condition.bare thenValue.bare elseValue.bare
  | .call callee arguments => .call callee.bare (bareExpressions arguments)
  | .member object property => .member object.bare property.bare
  | .index object index => .index object.bare index.bare
  | .slice object start stop => .slice object.bare (bareBound start) (bareBound stop)

/-- Expressions without spans. -/
def bareExpressions : List Expression → List Expression
  | [] => []
  | expression :: others => expression.bare :: bareExpressions others

/-- A bound of a slice without spans. -/
def bareBound : Option Expression → Option Expression
  | none => none
  | some bound => if merged && bound.form.isBlank then none else some bound.bare

/-- The entries of a dictionary literal without spans. -/
def bareEntries : List DictionaryEntry → List DictionaryEntry
  | [] => []
  | entry :: others => entry.bare :: bareEntries others

/-- An entry of a dictionary literal without spans. -/
def DictionaryEntry.bare : DictionaryEntry → DictionaryEntry
  | ⟨key, value, _⟩ => ⟨key, value.bare, default⟩

/-- The fields of a struct literal without spans. -/
def bareFields : List StructField → List StructField
  | [] => []
  | field :: others => field.bare :: bareFields others

/-- A field of a struct literal without spans. -/
def StructField.bare : StructField → StructField
  | ⟨name, value, _⟩ => ⟨name.bare, value.bare, default⟩

end

/-- A program without spans and without the name of its file. -/
def Program.bare (program : Program) : Program :=
  ⟨bareStatements merged program.statements, none, default⟩

@[simp] theorem bareStatements_eq (statements : List Statement) :
    bareStatements merged statements = statements.map (Statement.bare merged) := by
  induction statements with
  | nil => rfl
  | cons statement others ih => rw [bareStatements, ih, List.map_cons]

@[simp] theorem bareBranches_eq (branches : List Branch) :
    bareBranches merged branches = branches.map (Branch.bare merged) := by
  induction branches with
  | nil => rfl
  | cons branch others ih => rw [bareBranches, ih, List.map_cons]

@[simp] theorem bareExpressions_eq (expressions : List Expression) :
    bareExpressions merged expressions = expressions.map (Expression.bare merged) := by
  induction expressions with
  | nil => rfl
  | cons expression others ih => rw [bareExpressions, ih, List.map_cons]

@[simp] theorem bareEntries_eq (entries : List DictionaryEntry) :
    bareEntries merged entries = entries.map (DictionaryEntry.bare merged) := by
  induction entries with
  | nil => rfl
  | cons entry others ih => rw [bareEntries, ih, List.map_cons]

@[simp] theorem bareFields_eq (fields : List StructField) :
    bareFields merged fields = fields.map (StructField.bare merged) := by
  induction fields with
  | nil => rfl
  | cons field others ih => rw [bareFields, ih, List.map_cons]

@[simp] theorem bareBlock?_eq (block : Option Block) :
    bareBlock? merged block = block.map (Block.bare merged) := by
  cases block <;> rfl

end Bare

section Lists

variable (indent : Nat)

@[simp] theorem statementSexprs_eq (statements : List Statement) :
    statementSexprs indent statements = statements.map (·.sexpr indent) := by
  induction statements with
  | nil => rfl
  | cons statement others ih => rw [statementSexprs, ih, List.map_cons]

/-- The S-expression of a branch of an `if`. -/
def Branch.sexpr (branch : Branch) : Sexpr :=
  .headed "when" [branch.condition.sexpr, branch.body.sexpr indent]

@[simp] theorem branchSexprs_eq (branches : List Branch) :
    branchSexprs indent branches = branches.map (Branch.sexpr indent) := by
  induction branches with
  | nil => rfl
  | cons branch others ih =>
    obtain ⟨condition, body, span⟩ := branch
    rw [branchSexprs, ih, List.map_cons, Branch.sexpr]

@[simp] theorem optionalBlockSexpr_eq (head : String) (block : Option Block) :
    optionalBlockSexpr head indent block =
      (block.map fun inner => .headed head [inner.sexpr indent]).toList := by
  cases block <;> rfl

@[simp] theorem expressionSexprs_eq (expressions : List Expression) :
    expressionSexprs expressions = expressions.map Expression.sexpr := by
  induction expressions with
  | nil => rfl
  | cons expression others ih => rw [expressionSexprs, ih, List.map_cons]

/-- The S-expression of an entry of a dictionary literal. -/
def DictionaryEntry.sexpr (entry : DictionaryEntry) : Sexpr :=
  .row [.atom (quoted entry.key), entry.value.sexpr]

@[simp] theorem entrySexprs_eq (entries : List DictionaryEntry) :
    entrySexprs entries = entries.map DictionaryEntry.sexpr := by
  induction entries with
  | nil => rfl
  | cons entry others ih =>
    obtain ⟨key, value, span⟩ := entry
    rw [entrySexprs, ih, List.map_cons, DictionaryEntry.sexpr]

/-- The S-expression of a field of a struct literal. -/
def StructField.sexpr (field : StructField) : Sexpr :=
  .row [.atom field.name.name, field.value.sexpr]

@[simp] theorem fieldSexprs_eq (fields : List StructField) :
    fieldSexprs fields = fields.map StructField.sexpr := by
  induction fields with
  | nil => rfl
  | cons field others ih =>
    obtain ⟨name, value, span⟩ := field
    rw [fieldSexprs, ih, List.map_cons, StructField.sexpr]

end Lists

namespace SyntaxNode

/-- A node without spans. -/
def bare (merged : Bool) : SyntaxNode → SyntaxNode
  | program value => program (value.bare merged)
  | statement value => statement (value.bare merged)
  | form value _ => form (value.bare merged) default
  | block value => block (value.bare merged)
  | branch value => branch (value.bare merged)
  | function value => function (value.bare merged)
  | struct value => struct ⟨value.name.bare, value.properties.map Identifier.bare, default⟩
  | importing value => importing ⟨value.path, value.alias?.map Identifier.bare, default⟩
  | identifier value => identifier value.bare
  | expression value => expression (value.bare merged)
  | entry value => entry (value.bare merged)
  | field value => field (value.bare merged)

/-- The S-expression of a node in a place indented by `indent` blanks. -/
def sexpr (indent : Nat) : SyntaxNode → Sexpr
  | program value => value.sexpr
  | statement value => value.sexpr indent
  | form value _ => value.sexpr indent
  | block value => value.sexpr indent
  | branch value => value.sexpr indent
  | function value => value.sexpr indent
  | struct value => (StatementForm.struct value).sexpr indent
  | importing value => (StatementForm.importing value).sexpr indent
  | identifier value => .atom value.name
  | expression value => value.sexpr
  | entry value => value.sexpr
  | field value => value.sexpr

end SyntaxNode

end Kestrel
