import Kestrel.Proofs.Number.Plain
import Kestrel.Proofs.Syntax.Bare
import Kestrel.Proofs.Syntax.Runnable
import Kestrel.Proofs.Text.Quoted
import Mathlib.Data.Set.Function

/-!
# How S-expressions are read

Where an S-expression stands says what it is to be read as: an expression, a statement, a block or
something else. An S-expression is read as all of these at once, each time from the readings of its
items, so that reading follows the S-expression alone. A word or a quoted text is read as what has
that text.
-/

namespace Kestrel

instance : Inhabited Branch := ⟨⟨default, default, default⟩⟩
instance : Inhabited FunctionDeclaration := ⟨⟨default, [], default, default⟩⟩
instance : Inhabited DictionaryEntry := ⟨⟨"", default, default⟩⟩
instance : Inhabited StructField := ⟨⟨default, default, default⟩⟩

/-- What an S-expression may stand for. -/
structure Reading where
  /-- The word that it is or that it begins with. -/
  word : String
  names : List Identifier
  expression : Expression
  statement : Statement
  block : Block
  /-- A clause of a statement; its condition says nothing where the clause has none. -/
  clause : Branch
  function : FunctionDeclaration
  entry : DictionaryEntry
  field : StructField
  deriving Inhabited

namespace Reading

/-- The name that an item stands for. -/
def name (reading : Reading) : Identifier := ⟨reading.word, default⟩

/-- The bound of a slice that an item stands for. -/
def bound (reading : Reading) : Option Expression :=
  if reading.expression.form.isBlank then none else some reading.expression

/-- The body of the first clause that begins with a word. -/
def body? (head : String) (clauses : List Reading) : Option Block :=
  (clauses.find? (·.word == head)).map (·.clause.body)

/-- The text that a quoted text stands for. -/
noncomputable def unquoted : String → String := Function.invFun quoted

/-- What a word or a quoted text stands for: a number if it begins as one. -/
noncomputable def leaf (text : String) : ExpressionForm :=
  if text.toList.head?.any fun c => c.isDigit || c == '-' then
    .number (Function.invFunOn NumberLayout.plain.format {x | x.isNaN = false} text)
  else if text.toList.head? = some '"' then .string (unquoted text)
  else if text = "true" then .boolean true
  else if text = "false" then .boolean false
  else if text = "nothing" then .nothing
  else .identifier text

/-- The operator between two operands that a word stands for. -/
def binaryOperator (symbol : String) : BinaryOperator :=
  ([.add, .subtract, .multiply, .divide, .modulo, .equal, .notEqual, .less, .lessEqual, .greater,
    .greaterEqual, .and, .or].find? (·.symbol == symbol)).getD default

/-- The operator in front of an operand that a word stands for. -/
def unaryOperator (symbol : String) : UnaryOperator := if symbol = "not" then .not else .negate

/-- The operator of an assignment that a word stands for, if any. -/
def assignOperator? (symbol : String) : Option AssignOperator :=
  [.assign, .addAssign, .subtractAssign, .multiplyAssign, .divideAssign].find? (·.symbol == symbol)

/-- The expression that a row stands for, from its head and its other items. -/
def expressionForm : String → List Reading → ExpressionForm
  | "array", elements => .array (elements.map expression)
  | "dict", entries => .dictionary (entries.map entry)
  | "new", target :: fields => .structLiteral target.expression (fields.map field)
  | "fn", [parameters, body] => .function parameters.names body.block
  | "?", [condition, thenValue, elseValue] =>
    .ternary condition.expression thenValue.expression elseValue.expression
  | "call", callee :: arguments => .call callee.expression (arguments.map expression)
  | ".", [object, property] => .member object.expression property.name
  | "index", [object, index] => .index object.expression index.expression
  | "slice", [object, start, stop] => .slice object.expression start.bound stop.bound
  | symbol, [operand] => .unary (unaryOperator symbol) operand.expression
  | symbol, [left, right] => .binary left.expression (binaryOperator symbol) right.expression
  | _, _ => .nothing

/-- The statement that a row stands for, from its head and its other items: an expression if it is
nothing else. -/
noncomputable def statementForm : String → List Reading → StatementForm
  | "var", [name, value] => .var name.name value.expression default
  | "if", clauses => .conditional ((clauses.filter (·.word == "when")).map clause)
    (body? "else" clauses) default
  | "loop", [body] => .loop body.block default
  | "for", [names, iterable, body] =>
    .forEach names.names.dropLast.head? (names.names.getLastD default) iterable.expression
      body.block default
  | "fn", [name, parameters, body] =>
    .function ⟨name.name, parameters.names, body.block, default⟩
  | "struct", [name, properties] => .struct ⟨name.name, properties.names, default⟩
  | "method", [structName, declaration] => .method structName.name declaration.function default
  | "try", body :: clauses =>
    .attempt body.block (body? "catch" clauses) (body? "finally" clauses) default
  | "return", values => .returning (values.head?.map expression)
  | "break", _ => .breaking
  | "continue", _ => .continuing
  | "import", path :: names => .importing ⟨unquoted path.word, names.head?.map name, default⟩
  | symbol, items =>
    match assignOperator? symbol, items with
    | some operator, [target, value] =>
      .assignment target.expression operator value.expression default
    | _, _ => .expression ⟨expressionForm symbol items, default⟩

/-- How a word or a quoted text is read. -/
noncomputable def ofText (text : String) : Reading :=
  { (default : Reading) with
    word := text
    expression := ⟨leaf text, default⟩
    statement := ⟨.expression ⟨leaf text, default⟩, default⟩ }

/-- How a list is read from the readings of its items. -/
noncomputable def ofItems (items : List Reading) : Reading :=
  let head := items.headD default
  let inside := items.tail
  { word := head.word
    names := items.map name
    expression := ⟨expressionForm head.word inside, default⟩
    statement := ⟨statementForm head.word inside, default⟩
    block := ⟨inside.map statement, default⟩
    clause := ⟨(inside.headD default).expression, (inside.getLastD default).block, default⟩
    function := ⟨(inside.getD 0 default).name, (inside.getD 1 default).names,
      (inside.getD 2 default).block, default⟩
    entry := ⟨unquoted head.word, (inside.headD default).expression, default⟩
    field := ⟨head.name, (inside.headD default).expression, default⟩ }

end Reading

open Reading

namespace Sexpr

mutual

/-- How an S-expression is read. -/
noncomputable def read : Sexpr → Reading
  | .atom text => .ofText text
  | .row items => .ofItems (readAll items)
  | .lines head _ items => .ofItems (.ofText head :: readAll items)

/-- How several S-expressions are read. -/
noncomputable def readAll : List Sexpr → List Reading
  | [] => []
  | item :: others => item.read :: readAll others

end

/-- A statement is read without a span. -/
theorem statement_read (s : Sexpr) : s.read.statement = ⟨s.read.statement.form, default⟩ := by
  cases s <;> rfl

/-- Several S-expressions are read one by one. -/
theorem readAll_eq (items : List Sexpr) : readAll items = items.map read := by
  induction items with
  | nil => rfl
  | cons item others ih => rw [readAll, ih, List.map_cons]

end Sexpr

open Sexpr

section Words

/-- What was put in quotation marks is found between them. -/
theorem unquoted_quoted (text : String) : unquoted (quoted text) = text :=
  Function.leftInverse_invFun quoted_injective text

/-- A quoted text is read as this text. -/
theorem leaf_quoted (text : String) : leaf (quoted text) = .string text := by
  have hfront : (quoted text).toList.head? = some '"' := by
    rw [quoted, String.toList_ofList]
    rfl
  rw [leaf, hfront, if_neg (by decide), if_pos rfl, unquoted_quoted]

/-- A number is read back, but for the infinite one, which is read as a name. -/
theorem leaf_format {x : Float} (hnumber : x.isNaN = false) :
    leaf (NumberLayout.plain.format x) = (ExpressionForm.number x).bare true := by
  have hback : Function.invFunOn NumberLayout.plain.format {x | x.isNaN = false}
      (NumberLayout.plain.format x) = x :=
    Set.InjOn.leftInvOn_invFunOn
      (fun _ hx _ hy hsame => NumberLayout.plain_format_injective hx hy hsame) hnumber
  obtain ⟨negative, text, htext, hcases⟩ := NumberLayout.plain_format_eq hnumber
  have hfinite (hfront : (NumberLayout.plain.format x).toList.head?.any
      fun c => c.isDigit || c == '-') (hother : Binary.ofFloat x ≠ .infinite false) :
      leaf (NumberLayout.plain.format x) = (ExpressionForm.number x).bare true := by
    rw [leaf, if_pos hfront, hback, ExpressionForm.bare, if_neg (by simp [hother])]
  cases negative with
  | true =>
    refine hfinite (by rw [htext]; rfl) ?_
    rcases hcases with ⟨hinfinite, -⟩ | ⟨m, e, hfinite, -⟩
    · simp [hinfinite]
    · simp [hfinite]
  | false =>
    rcases hcases with ⟨hinfinite, hinf⟩ | ⟨m, e, hfinite', hmagnitude⟩
    · have hformat : NumberLayout.plain.format x = "inf" :=
        String.toList_inj.mp (htext.trans hinf)
      rw [hformat, ExpressionForm.bare, if_pos (by simp [hinfinite])]
      rfl
    · refine hfinite ?_ (by simp [hfinite'])
      obtain ⟨hfirst, -⟩ := NumberLayout.isPointed_setMagnitude m e
      rw [htext, hmagnitude]
      revert hfirst
      cases NumberLayout.plain.setMagnitude m e <;> simp +contextual

/-- A name is read back. -/
theorem leaf_name {name : String} (hisName : IsName name) : leaf name = .identifier name := by
  obtain ⟨c, others, hletters⟩ : ∃ c others, name.toList = c :: others := by
    cases hname : name.toList with
    | nil => exact absurd hisName.start (by simp [hname])
    | cons c others => exact ⟨c, others, rfl⟩
  have hstart : isNameStart c := by simpa [hletters] using hisName.start
  have hlow : 'A' ≤ c := by
    simp only [isNameStart, Bool.or_eq_true, Bool.and_eq_true, decide_eq_true_eq,
      beq_iff_eq] at hstart
    rcases hstart with (⟨hlow, -⟩ | ⟨hlow, -⟩) | rfl
    · exact Char.le_trans (by decide : 'A' ≤ 'a') hlow
    · exact hlow
    · decide
  have hdigit : (c.isDigit || c == '-') = false := by
    rw [Bool.eq_false_iff]
    simp only [Char.isDigit, ne_eq, Bool.or_eq_true, Bool.and_eq_true, decide_eq_true_eq,
      beq_iff_eq]
    rintro (⟨-, hhigh⟩ | rfl)
    · have hnine : c ≤ '9' := hhigh
      exact absurd (Char.le_trans hlow hnine) (by decide)
    · exact absurd hlow (by decide)
  have hquote : c ≠ '"' := by
    rintro rfl
    exact absurd hstart (by decide)
  have hfree {word : String} (hword : word ∈ reservedWords) : name ≠ word := by
    rintro rfl
    exact hisName.free hword
  rw [leaf, hletters, if_neg (by simp [hdigit]), if_neg (by simpa using hquote),
    if_neg (hfree (by decide)), if_neg (hfree (by decide)), if_neg (hfree (by decide))]

end Words

namespace Reading

section Clauses

variable {head : String} {first second : List Reading}

/-- The first clause with a word is not among those with another word. -/
theorem body?_append_left (hother : ∀ reading ∈ second, reading.word ≠ head) :
    body? head (first ++ second) = body? head first := by
  have hnone : second.find? (·.word == head) = none :=
    List.find?_eq_none.mpr fun reading hreading => by simpa using hother reading hreading
  rw [body?, List.find?_append, hnone, Option.or_none, body?]

/-- The first clause with a word comes after those with another word. -/
theorem body?_append_right (hother : ∀ reading ∈ first, reading.word ≠ head) :
    body? head (first ++ second) = body? head second := by
  have hnone : first.find? (·.word == head) = none :=
    List.find?_eq_none.mpr fun reading hreading => by simpa using hother reading hreading
  rw [body?, List.find?_append, hnone, Option.none_or, body?]

/-- The word of a clause that may be missing. -/
theorem word_of_mem_optionalBlockSexpr (head : String) (indent : Nat) (block : Option Block) :
    ∀ reading ∈ readAll (optionalBlockSexpr head indent block), reading.word = head := by
  cases block with
  | none => exact List.forall_mem_nil _
  | some inner => exact List.forall_mem_singleton.mpr rfl

/-- The body of a clause that may be missing. -/
theorem body?_optionalBlockSexpr (head : String) (indent : Nat) (block : Option Block) :
    body? head (readAll (optionalBlockSexpr head indent block)) =
      block.map fun inner => (inner.sexpr indent).read.block := by
  cases block with
  | none => rfl
  | some inner =>
    have hfound : ((headed head [inner.sexpr indent]).read.word == head) = true :=
      beq_self_eq_true head
    rw [body?, optionalBlockSexpr, readAll, readAll, List.find?_singleton, if_pos hfound]
    rfl

end Clauses

end Reading

end Kestrel
