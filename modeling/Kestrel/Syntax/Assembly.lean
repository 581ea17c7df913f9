import Kestrel.Grammar.Reading
import Kestrel.Number.Layout
import Kestrel.Number.Reading
import Kestrel.Syntax.Escape
import Kestrel.Syntax.Precedence

/-!
# From matched rules to syntax trees

What a rule means is made from what its parts mean. A part may be at fault; its fault is kept with
the part, and the rule around it decides in which order it looks at its parts, so that of several
faults the first one in the text is reported.
-/

namespace Kestrel

/-- What a matched rule stands for. -/
inductive Meaning where
  | token
  | program (value : Program)
  | statement (value : Statement)
  | statementForm (value : StatementForm)
  | block (value : Block)
  | branch (value : Branch)
  | function (value : FunctionDeclaration)
  | names (value : List Identifier)
  | expression (value : Expression)
  | ternaryTail (thenValue elseValue : Expression)
  | callArguments (value : List Expression)
  | memberAccess (property : Identifier)
  | indexAccess (index : Expression)
  | sliceAccess (start stop : Option Expression)
  | number (value : Float)
  | string (value : String)
  | structField (value : StructField)
  | dictionaryEntry (value : DictionaryEntry)

/-- A matched rule with its meaning, or with the fault that keeps it from having one. -/
structure Part where
  rule : Rule
  span : Span
  text : String
  meaning : Except SyntaxFault Meaning

/-- What assembling gives. -/
abbrev Assembled := Except SyntaxFault

namespace Part

/-- The fault of a part that has no business where it stands. -/
def misplaced {α : Type} (part : Part) (context : Rule) : Assembled α :=
  .error (.unexpectedRule part.span context.description part.rule.description)

/-- The name that an identifier gives. -/
def identifier (part : Part) : Assembled Identifier :=
  match part.rule with
  | .identifier => .ok ⟨part.text, part.span⟩
  | _ => part.misplaced .identifier

/-- The expression that a part stands for. -/
def expression (part : Part) : Assembled Expression := do
  match ← part.meaning with
  | .expression value => .ok value
  | _ => part.misplaced .expression

/-- The block that a part stands for. -/
def block (part : Part) : Assembled Block := do
  match ← part.meaning with
  | .block value => .ok value
  | _ => part.misplaced .block

/-- The statement that a part stands for. -/
def statement (part : Part) : Assembled Statement := do
  match ← part.meaning with
  | .statement value => .ok value
  | _ => part.misplaced .statement

/-- The parameters that a part lists. -/
def names (part : Part) : Assembled (List Identifier) := do
  match ← part.meaning with
  | .names value => .ok value
  | _ => part.misplaced .parameterList

/-- The text that a string literal denotes. -/
def string (part : Part) : Assembled String := do
  match ← part.meaning with
  | .string value => .ok value
  | _ => part.misplaced .string

/-- The declaration that a function's part stands for. -/
def function (part : Part) : Assembled FunctionDeclaration := do
  match ← part.meaning with
  | .function value => .ok value
  | _ => part.misplaced .functionDeclaration

/-- The expression that a part stands for at the head of a postfix chain. Parentheses leave no
trace. -/
def primary (part : Part) : Assembled Expression := do
  match part.rule, ← part.meaning with
  | _, .number value => .ok ⟨.number value, part.span⟩
  | _, .string value => .ok ⟨.string value, part.span⟩
  | _, .expression value => .ok value
  | .boolean, .token => .ok ⟨.boolean (part.text == "true"), part.span⟩
  | .nothing, .token => .ok ⟨.nothing, part.span⟩
  | .identifier, .token => .ok ⟨.identifier part.text, part.span⟩
  | _, _ => part.misplaced .postfixExpr

/-- A further member of a postfix chain. -/
def postfixAfter (object : Expression) (part : Part) : Assembled Expression := do
  let span := object.span.join part.span
  match ← part.meaning with
  | .callArguments arguments => .ok ⟨.call object arguments, span⟩
  | .memberAccess property => .ok ⟨.member object property, span⟩
  | .indexAccess index => .ok ⟨.index object index, span⟩
  | .sliceAccess start stop => .ok ⟨.slice object start stop, span⟩
  | _ => part.misplaced .postfixExpr

/-- The operator that a rule stands for between two operands. -/
def binaryOperator? : Rule → Option BinaryOperator
  | .opOr => some .or
  | .opAnd => some .and
  | .opEqual => some .equal
  | .opNotEqual => some .notEqual
  | .opLessEqual => some .lessEqual
  | .opGreaterEqual => some .greaterEqual
  | .opLess => some .less
  | .opGreater => some .greater
  | .opAdd => some .add
  | .opSubtract => some .subtract
  | .opMultiply => some .multiply
  | .opDivide => some .divide
  | .opModulo => some .modulo
  | _ => none

/-- The operator that a rule stands for in front of an operand. -/
def unaryOperator? : Rule → Option UnaryOperator
  | .opNegate => some .negate
  | .opNot => some .not
  | _ => none

/-- The operator that a rule stands for in an assignment. -/
def assignOperator? : Rule → Option AssignOperator
  | .opAssign => some .assign
  | .opAssignAdd => some .addAssign
  | .opAssignSubtract => some .subtractAssign
  | .opAssignMultiply => some .multiplyAssign
  | .opAssignDivide => some .divideAssign
  | _ => none

/-- The member that a part adds to a row of operands and operators. -/
def rowItem (part : Part) : Assembled RowItem := do
  match binaryOperator? part.rule, unaryOperator? part.rule with
  | some operator, _ => .ok (.binary operator)
  | none, some operator => .ok (.unary operator part.span)
  | none, none => return .operand (← part.expression)

/-- The key of a dictionary entry: a string, the text of a number, or a bare name. -/
def entryKey (part : Part) : Assembled String := do
  match part.rule, ← part.meaning with
  | _, .string value => .ok value
  | _, .number value => .ok (NumberLayout.plain.format value)
  | .identifier, .token => .ok part.text
  | _, _ => part.misplaced .dictionaryEntry

end Part

/-- A chain of names, each a member of what comes before it. -/
def memberChain (root : Identifier) (members : List Identifier) : Expression :=
  members.foldl (fun object property => ⟨.member object property, object.span.join property.span⟩)
    ⟨.identifier root.name, root.span⟩

/-- One further clause of an `if` statement. -/
def addClause (clauses : List Branch × Option Block) (part : Part) :
    Assembled (List Branch × Option Block) := do
  match ← part.meaning with
  | .branch branch => .ok (clauses.1 ++ [branch], clauses.2)
  | .block block => .ok (clauses.1, some block)
  | _ => part.misplaced .ifStatement

/-- A clause of the given rule at the head of a list of parts, if there is one, and the others. -/
def optionalClause (rule : Rule) (parts : List Part) : Assembled (Option Block × List Part) := do
  match parts with
  | [] => return (none, [])
  | part :: others =>
    if part.rule = rule then return (some (← part.block), others)
    else return (none, parts)

/-- The bounds of a slice, of which each may be missing. -/
def sliceBounds (parts : List Part) : Assembled (Option Expression × Option Expression) :=
  parts.foldlM (fun bounds part => do
    let bound ← part.expression
    match part.rule with
    | .sliceStart => return (some bound, bounds.2)
    | .sliceEnd => return (bounds.1, some bound)
    | _ => part.misplaced .sliceBounds) (none, none)

/-- The meaning of a rule that stands for a kind of statement. -/
def assembleStatementForm (rule : Rule) (span : Span) (parts : List Part) :
    Assembled StatementForm := do
  match rule, parts with
  | .varDeclaration, [_, name, value] =>
    return .var (← name.identifier) (← value.expression) span
  | .structDeclaration, _ :: name :: properties =>
    return .struct ⟨← name.identifier, ← properties.mapM Part.identifier, span⟩
  | .methodDeclaration, [name, function] =>
    return .method (← name.identifier) (← function.function) span
  | .ifStatement, _ :: condition :: body :: clauses =>
    let condition ← condition.expression
    let body ← body.block
    let branch : Branch := ⟨condition, body, condition.span.join body.span⟩
    let (branches, otherwise) ← clauses.foldlM addClause ([branch], none)
    return .conditional branches otherwise span
  | .loopStatement, [_, body] => return .loop (← body.block) span
  | .forStatement, [_, item, _, iterable, body] =>
    return .forEach none (← item.identifier) (← iterable.expression) (← body.block) span
  | .forStatement, [_, index, item, _, iterable, body] =>
    return .forEach (some (← index.identifier)) (← item.identifier) (← iterable.expression)
      (← body.block) span
  | .tryStatement, _ :: body :: clauses =>
    let body ← body.block
    let (catchBlock, clauses) ← optionalClause .catchClause clauses
    let (finallyBlock, _) ← optionalClause .finallyClause clauses
    return .attempt body catchBlock finallyBlock span
  | .returnStatement, [_] => return .returning none
  | .returnStatement, [_, value] => return .returning (some (← value.expression))
  | .breakStatement, _ => return .breaking
  | .continueStatement, _ => return .continuing
  | .importStatement, [_, path] => return .importing ⟨← path.string, none, span⟩
  | .importStatement, [_, path, _, name] =>
    return .importing ⟨← path.string, some (← name.identifier), span⟩
  | .assignment, [target, operator, value] =>
    let target ← target.expression
    if target.form.isAssignable then
      match Part.assignOperator? operator.rule with
      | some symbol => return .assignment target symbol (← value.expression) span
      | none => operator.misplaced .assignment
    else .error (.notAssignable target.span)
  | .expressionStatement, [value] => return .expression (← value.expression)
  | _, _ => .error (.unexpectedRule span rule.description "end of rule")

/-- The meaning of a rule, from the text it covers and its parts. -/
def assemble (rule : Rule) (span : Span) (text : String) (parts : List Part) :
    Assembled Meaning := do
  match rule, parts with
  | .endOfInput, _ => return .token
  | .program, _ =>
    let statements := parts.filter (·.rule != .endOfInput)
    return .program ⟨← statements.mapM Part.statement, none, span⟩
  | .singleExpression, value :: _ => return .expression (← value.expression)
  | .block, _ => return .block ⟨← parts.mapM Part.statement, span⟩
  | .statement, [part] =>
    match ← part.meaning with
    | .statementForm form => return .statement ⟨form, span⟩
    | .function declaration => return .statement ⟨.function declaration, span⟩
    | _ => part.misplaced .statement
  | .functionDeclaration, [_, name, parameters, body] =>
    return .function ⟨← name.identifier, ← parameters.names, ← body.block, span⟩
  | .parameterList, _ => return .names (← parts.mapM Part.identifier)
  | .elseifClause, [_, condition, body] =>
    return .branch ⟨← condition.expression, ← body.block, span⟩
  | .elseifClause, [_, _, condition, body] =>
    return .branch ⟨← condition.expression, ← body.block, span⟩
  | .elseClause, [_, body] => return .block (← body.block)
  | .catchClause, [_, body] => return .block (← body.block)
  | .finallyClause, [_, body] => return .block (← body.block)
  | .expression, [value] => return .expression (← value.expression)
  | .expression, [condition, tail] =>
    let condition ← condition.expression
    match ← tail.meaning with
    | .ternaryTail thenValue elseValue =>
      return .expression ⟨.ternary condition thenValue elseValue, span⟩
    | _ => tail.misplaced .expression
  | .ternaryTail, [thenValue, elseValue] =>
    return .ternaryTail (← thenValue.expression) (← elseValue.expression)
  | .binaryExpr, _ =>
    match Expression.ofRow? (← parts.mapM Part.rowItem) with
    | some value => return .expression value
    | none => .error (.unexpectedRule span rule.description "end of rule")
  | .postfixExpr, first :: chain =>
    return .expression (← chain.foldlM Part.postfixAfter (← first.primary))
  | .callArguments, _ => return .callArguments (← parts.mapM Part.expression)
  | .memberAccess, [property] => return .memberAccess (← property.identifier)
  | .indexAccess, [part] =>
    match ← part.meaning with
    | .sliceAccess start stop => return .sliceAccess start stop
    | .expression index => return .indexAccess index
    | _ => part.misplaced .indexAccess
  | .sliceBounds, _ =>
    let (start, stop) ← sliceBounds parts
    return .sliceAccess start stop
  | .sliceStart, [value] => return .expression (← value.expression)
  | .sliceEnd, [value] => return .expression (← value.expression)
  | .number, _ =>
    match readNumber? text.toList with
    | some value => return .number value
    | none => .error (.invalidNumber span text)
  | .string, [content] =>
    return .string (← resolveEscapes content.span.start [] content.text.toList)
  | .functionLiteral, [_, parameters, body] =>
    return .expression ⟨.function (← parameters.names) (← body.block), span⟩
  | .structLiteral, path :: fields =>
    match ← path.names with
    | [] => .error (.unexpectedRule span rule.description "end of rule")
    | root :: members =>
      let fields ← fields.mapM fun (part : Part) => do
        match ← part.meaning with
        | .structField field => pure field
        | _ => part.misplaced .structLiteral
      return .expression ⟨.structLiteral (memberChain root members) fields, span⟩
  | .structPath, _ => return .names (← parts.mapM Part.identifier)
  | .structField, [name, value] =>
    return .structField ⟨← name.identifier, ← value.expression, span⟩
  | .array, _ => return .expression ⟨.array (← parts.mapM Part.expression), span⟩
  | .dictionary, _ =>
    let entries ← parts.mapM fun (part : Part) => do
      match ← part.meaning with
      | .dictionaryEntry entry => pure entry
      | _ => part.misplaced .dictionary
    return .expression ⟨.dictionary entries, span⟩
  | .dictionaryEntry, [key, value] =>
    return .dictionaryEntry ⟨← key.entryKey, ← value.expression, span⟩
  | _, _ =>
    match rule.definition.mode with
    | .token => return .token
    | .spaced | .tight => return .statementForm (← assembleStatementForm rule span parts)

mutual

/-- A node as a part of the rule around it. -/
def Node.part : Node → Part
  | ⟨rule, start, stop, text, children⟩ =>
    let span := Span.between start stop
    ⟨rule, span, text, assemble rule span text (partsOf children)⟩

/-- Nodes as the parts of the rule around them. -/
def partsOf : List Node → List Part
  | [] => []
  | node :: others => node.part :: partsOf others

end

end Kestrel
