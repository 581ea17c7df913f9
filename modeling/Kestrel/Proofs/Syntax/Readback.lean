import Kestrel.Proofs.Syntax.Proper
import Kestrel.Proofs.Syntax.Reader

/-!
# Trees are read back from S-expressions

Reading the S-expression of a node as what the node is gives the node without its spans, and with
what is written alike merged. This holds of a node if it holds of the nodes right inside.
-/

namespace Kestrel

open Reading Sexpr

namespace Reading

/-- A reading, as that of a kind of node, tells a node without its spans and with what is written
alike merged. An expression is told as a statement, too, and so is a named function. -/
def Tells (reading : Reading) : SyntaxNode → Prop
  | .program value => reading.block.statements = (value.bare true).statements
  | .statement value => reading.statement = value.bare true
  | .form value _ => reading.statement.form = value.bare true
  | .block value => reading.block = value.bare true
  | .branch value => reading.clause = value.bare true
  | .function value =>
    reading.function = value.bare true ∧ reading.statement.form = .function (value.bare true)
  | .struct value => reading.statement.form = (StatementForm.struct value).bare true
  | .importing value => reading.statement.form = (StatementForm.importing value).bare true
  | .identifier value => reading.expression.form = .identifier value.name
  | .expression value =>
    reading.expression = value.bare true ∧ reading.statement.form = .expression (value.bare true)
  | .entry value => reading.entry = value.bare true
  | .field value => reading.field = value.bare true

end Reading

namespace SyntaxNode

/-- A node that is told, in every place, by how its S-expression is read. -/
def ReadBack (node : SyntaxNode) : Prop := ∀ indent, (node.sexpr indent).read.Tells node

/-- A block is told by what is read as a block. -/
theorem readBack_block {value : Block} : (block value).ReadBack ↔
    ∀ indent, (value.sexpr indent).read.block = value.bare true := Iff.rfl

/-- An expression is told by what is read as one, alone or as a statement. -/
theorem readBack_expression {value : Expression} : (expression value).ReadBack ↔
    value.sexpr.read.expression = value.bare true ∧
      value.sexpr.read.statement.form = .expression (value.bare true) :=
  ⟨fun hback => hback 0, fun hback _ => hback⟩

/-- An entry is told by what is read as one. -/
theorem readBack_entry {value : DictionaryEntry} : (entry value).ReadBack ↔
    value.sexpr.read.entry = value.bare true := ⟨fun hback => hback 0, fun hback _ => hback⟩

/-- A field is told by what is read as one. -/
theorem readBack_field {value : StructField} : (field value).ReadBack ↔
    value.sexpr.read.field = value.bare true := ⟨fun hback => hback 0, fun hback _ => hback⟩

end SyntaxNode

open SyntaxNode

section Lists

variable {α β : Type} {items : List α} {item? : Option α}

/-- Items that are read back one by one. -/
theorem map_readAll {sexpr : α → Sexpr} {pick : Reading → β} {bare : α → β}
    (hback : ∀ item ∈ items, pick (sexpr item).read = bare item) :
    (readAll (items.map sexpr)).map pick = items.map bare := by
  rw [readAll_eq, List.map_map, List.map_map]
  exact List.map_congr_left hback

/-- The names of a row are read back. -/
theorem read_names (identifiers : List Identifier) :
    (names identifiers).read.names = identifiers.map Identifier.bare :=
  map_readAll fun _ _ => rfl

/-- A bound of a slice is read back, but for the name that stands for a missing one. -/
theorem bound_read {bound : Option Expression}
    (hback : ∀ value ∈ bound, (SyntaxNode.expression value).ReadBack) :
    (boundSexpr bound).read.bound = bareBound true bound := by
  cases bound with
  | none => rfl
  | some value =>
    have hblank : (value.bare true).form.isBlank = value.form.isBlank := by
      obtain ⟨form, span⟩ := value
      cases form with
      | number x =>
        simp only [Expression.bare, ExpressionForm.bare]
        split_ifs <;> rfl
      | _ => rfl
    rw [boundSexpr, Reading.bound, (readBack_expression.mp (hback value rfl)).1, hblank, bareBound,
      Bool.true_and]

/-- Statements are read back. -/
theorem statements_readAll {statements : List Statement} (indent : Nat)
    (hback : ∀ one ∈ statements, (SyntaxNode.statement one).ReadBack) :
    (readAll (statementSexprs indent statements)).map Reading.statement =
      bareStatements true statements := by
  rw [statementSexprs_eq, bareStatements_eq]
  exact map_readAll fun one hone => hback one hone indent

/-- The statements of a block are read back. -/
theorem block_read_ofStatements {statements : List Statement} (indent : Nat)
    (hback : ∀ one ∈ statements, (SyntaxNode.statement one).ReadBack) :
    (ofStatements indent (statementSexprs indent statements)).read.block =
      ⟨bareStatements true statements, default⟩ := by
  have hread (items : List Sexpr) : (ofStatements indent items).read.block =
      ⟨(readAll items).map Reading.statement, default⟩ := by
    cases items with
    | nil => rfl
    | cons first others => cases others <;> rfl
  rw [hread, statements_readAll indent hback]

end Lists

section Clauses

variable {branches : List Branch} {block : Option Block} {head : String}

/-- The body of a clause that may be missing is read back. -/
theorem body?_read_optionalBlockSexpr (head : String) (indent : Nat)
    (hback : ∀ inner ∈ block, (SyntaxNode.block inner).ReadBack) :
    body? head (readAll (optionalBlockSexpr head indent block)) = bareBlock? true block := by
  rw [body?_optionalBlockSexpr, bareBlock?_eq]
  exact Option.map_congr fun inner hinner => hback inner hinner indent

/-- The clauses of an `if` are read back: its branches are those that have a condition. -/
theorem conditional_read (indent : Nat)
    (hbranches : ∀ branch ∈ branches, (SyntaxNode.branch branch).ReadBack)
    (hotherwise : ∀ inner ∈ block, (SyntaxNode.block inner).ReadBack) :
    let clauses := readAll (branchSexprs indent branches ++ optionalBlockSexpr "else" indent block)
    (clauses.filter (·.word == "when")).map clause = bareBranches true branches ∧
      body? "else" clauses = bareBlock? true block := by
  intro clauses
  have hclauses : clauses = readAll (branches.map (Branch.sexpr indent)) ++
      readAll (optionalBlockSexpr "else" indent block) := by
    simp only [clauses, readAll_eq, List.map_append, branchSexprs_eq]
  have hwhen : ∀ reading ∈ readAll (branches.map (Branch.sexpr indent)), reading.word = "when" := by
    rw [readAll_eq, List.map_map]
    exact List.forall_mem_map.mpr fun _ _ => rfl
  have helse := word_of_mem_optionalBlockSexpr "else" indent block
  rw [hclauses]
  constructor
  · have hkept : ∀ reading ∈ readAll (branches.map (Branch.sexpr indent)),
        (reading.word == "when") = true := fun reading hreading => by
      rw [hwhen reading hreading]
      rfl
    have hleft : ∀ reading ∈ readAll (optionalBlockSexpr "else" indent block),
        ¬(reading.word == "when") = true := fun reading hreading => by
      rw [helse reading hreading]
      decide
    rw [List.filter_append, List.filter_eq_self.mpr hkept, List.filter_eq_nil_iff.mpr hleft,
      List.append_nil, bareBranches_eq]
    exact map_readAll fun branch hbranch => hbranches branch hbranch indent
  · rw [body?_append_right fun reading hreading => hwhen reading hreading ▸ by decide]
    exact body?_read_optionalBlockSexpr "else" indent hotherwise

/-- The clauses of a `try` are read back. -/
theorem attempt_read {catchBlock finallyBlock : Option Block} (indent : Nat)
    (hcatch : ∀ inner ∈ catchBlock, (SyntaxNode.block inner).ReadBack)
    (hfinally : ∀ inner ∈ finallyBlock, (SyntaxNode.block inner).ReadBack) :
    let clauses := readAll (optionalBlockSexpr "catch" indent catchBlock ++
      optionalBlockSexpr "finally" indent finallyBlock)
    body? "catch" clauses = bareBlock? true catchBlock ∧
      body? "finally" clauses = bareBlock? true finallyBlock := by
  intro clauses
  have hclauses : clauses = readAll (optionalBlockSexpr "catch" indent catchBlock) ++
      readAll (optionalBlockSexpr "finally" indent finallyBlock) := by
    simp only [clauses, readAll_eq, List.map_append]
  rw [hclauses]
  constructor
  · rw [body?_append_left fun reading hreading =>
      word_of_mem_optionalBlockSexpr _ _ _ reading hreading ▸ by decide]
    exact body?_read_optionalBlockSexpr "catch" indent hcatch
  · rw [body?_append_right fun reading hreading =>
      word_of_mem_optionalBlockSexpr _ _ _ reading hreading ▸ by decide]
    exact body?_read_optionalBlockSexpr "finally" indent hfinally

end Clauses

/-- A form of statement is read back if what is inside is. -/
theorem StatementForm.form_read {form : StatementForm}
    (hinside : ∀ child ∈ form.inside, child.ReadBack) (indent : Nat) :
    (form.sexpr indent).read.statement.form = form.bare true := by
  cases form with
  | var name value span =>
    obtain ⟨-, hvalue⟩ := List.forall_mem_cons.mp hinside
    have hvalue := (List.forall_mem_singleton.mp hvalue 0).1
    exact congrArg (fun v => StatementForm.var name.bare v default) hvalue
  | assignment target operator value span =>
    simp only [StatementForm.inside, List.forall_mem_cons, readBack_expression] at hinside
    obtain ⟨⟨htarget, -⟩, ⟨hvalue, -⟩, -⟩ := hinside
    have hread : statementForm operator.symbol [target.sexpr.read, value.sexpr.read] =
        .assignment target.sexpr.read.expression operator value.sexpr.read.expression default := by
      cases operator <;> rfl
    rw [htarget, hvalue] at hread
    exact hread
  | expression value =>
    exact (List.forall_mem_singleton.mp hinside indent).2
  | conditional branches otherwise span =>
    simp only [StatementForm.inside, List.forall_mem_append, List.forall_mem_map,
      forall_mem_map_toList] at hinside
    obtain ⟨hbranches, hotherwise⟩ := conditional_read (indent + 2) hinside.1 hinside.2
    rw [StatementForm.bare, ← hbranches, ← hotherwise]
    rfl
  | loop body span =>
    have hbody := List.forall_mem_singleton.mp hinside indent
    exact congrArg (fun b => StatementForm.loop b default) hbody
  | forEach index item iterable body span =>
    simp only [StatementForm.inside, List.forall_mem_append, List.forall_mem_cons,
      readBack_expression, readBack_block] at hinside
    obtain ⟨-, -, ⟨hiterable, -⟩, hbody, -⟩ := hinside
    rw [StatementForm.bare, ← hiterable, ← hbody indent]
    cases index <;> rfl
  | function declaration =>
    exact (List.forall_mem_singleton.mp hinside indent).2
  | struct declaration =>
    exact List.forall_mem_singleton.mp hinside indent
  | method structName declaration span =>
    obtain ⟨-, hdeclaration⟩ := List.forall_mem_cons.mp hinside
    have hdeclaration := (List.forall_mem_singleton.mp hdeclaration indent).1
    exact congrArg (fun d => StatementForm.method structName.bare d default) hdeclaration
  | attempt body catchBlock finallyBlock span =>
    simp only [StatementForm.inside, List.forall_mem_cons, List.forall_mem_append,
      forall_mem_map_toList] at hinside
    obtain ⟨hbody, hcatch, hfinally⟩ := hinside
    obtain ⟨hcaught, hlast⟩ := attempt_read (indent + 2) hcatch hfinally
    rw [StatementForm.bare, ← hcaught, ← hlast]
    exact congrArg (fun b => StatementForm.attempt b _ _ default) (hbody (indent + 2))
  | returning value =>
    cases value with
    | none => rfl
    | some value =>
      have hvalue := (List.forall_mem_singleton.mp hinside indent).1
      exact congrArg (fun v => StatementForm.returning (some v)) hvalue
  | breaking => rfl
  | continuing => rfl
  | importing declaration => exact List.forall_mem_singleton.mp hinside indent

/-- The S-expression of an expression is that of no other statement. -/
theorem ExpressionForm.statement_read {form : ExpressionForm} :
    form.sexpr.read.statement.form = .expression form.sexpr.read.expression := by
  cases form with
  | binary left operator right => cases operator <;> rfl
  | unary operator operand => cases operator <;> rfl
  | _ => rfl

/-- A form of expression is read back if what is inside is. -/
theorem ExpressionForm.form_read {form : ExpressionForm} {span : Span}
    (hrunnable : form.Runnable) (hinside : ∀ child ∈ form.inside span, child.ReadBack) :
    form.sexpr.read.expression = ⟨form.bare true, default⟩ := by
  have hmade {made : ExpressionForm} (hmade' : made = form.bare true) :
      (⟨made, default⟩ : Expression) = ⟨form.bare true, default⟩ :=
    congrArg (Expression.mk · default) hmade'
  cases form with
  | number value => exact hmade (leaf_format hrunnable.number)
  | string value => exact hmade (leaf_quoted value)
  | boolean value => cases value <;> rfl
  | nothing => rfl
  | identifier name => exact hmade (List.forall_mem_singleton.mp hinside 0)
  | array elements =>
    simp only [ExpressionForm.inside, List.forall_mem_map, readBack_expression] at hinside
    have helements : (readAll (expressionSexprs elements)).map Reading.expression =
        bareExpressions true elements := by
      rw [expressionSexprs_eq, bareExpressions_eq]
      exact map_readAll fun element helement => (hinside element helement).1
    exact hmade (congrArg ExpressionForm.array helements)
  | dictionary entries =>
    simp only [ExpressionForm.inside, List.forall_mem_map, readBack_entry] at hinside
    have hentries : (readAll (entrySexprs entries)).map Reading.entry =
        bareEntries true entries := by
      rw [entrySexprs_eq, bareEntries_eq]
      exact map_readAll hinside
    exact hmade (congrArg ExpressionForm.dictionary hentries)
  | structLiteral target fields =>
    simp only [ExpressionForm.inside, List.forall_mem_cons, List.forall_mem_map,
      readBack_expression, readBack_field] at hinside
    obtain ⟨⟨htarget, -⟩, hfields⟩ := hinside
    have hfields : (readAll (fieldSexprs fields)).map Reading.field = bareFields true fields := by
      rw [fieldSexprs_eq, bareFields_eq]
      exact map_readAll hfields
    exact hmade (congr (congrArg ExpressionForm.structLiteral htarget) hfields)
  | function parameters body =>
    simp only [ExpressionForm.inside, List.forall_mem_append, List.forall_mem_cons,
      readBack_block] at hinside
    exact hmade (congr (congrArg ExpressionForm.function (read_names parameters)) (hinside.2.1 0))
  | binary left operator right =>
    simp only [ExpressionForm.inside, List.forall_mem_cons, readBack_expression] at hinside
    obtain ⟨⟨hleft, -⟩, ⟨hright, -⟩, -⟩ := hinside
    have hread : expressionForm operator.symbol [left.sexpr.read, right.sexpr.read] =
        .binary left.sexpr.read.expression operator right.sexpr.read.expression := by
      cases operator <;> rfl
    rw [hleft, hright] at hread
    exact hmade hread
  | unary operator operand =>
    simp only [ExpressionForm.inside, List.forall_mem_cons, readBack_expression] at hinside
    obtain ⟨⟨hoperand, -⟩, -⟩ := hinside
    have hread : expressionForm operator.symbol [operand.sexpr.read] =
        .unary operator operand.sexpr.read.expression := by
      cases operator <;> rfl
    rw [hoperand] at hread
    exact hmade hread
  | ternary condition thenValue elseValue =>
    simp only [ExpressionForm.inside, List.forall_mem_cons, readBack_expression] at hinside
    obtain ⟨⟨hcondition, -⟩, ⟨hthen, -⟩, ⟨helse, -⟩, -⟩ := hinside
    exact hmade (congr (congr (congrArg ExpressionForm.ternary hcondition) hthen) helse)
  | call callee arguments =>
    simp only [ExpressionForm.inside, List.forall_mem_cons, List.forall_mem_map,
      readBack_expression] at hinside
    obtain ⟨⟨hcallee, -⟩, harguments⟩ := hinside
    have harguments : (readAll (expressionSexprs arguments)).map Reading.expression =
        bareExpressions true arguments := by
      rw [expressionSexprs_eq, bareExpressions_eq]
      exact map_readAll fun argument hargument => (harguments argument hargument).1
    exact hmade (congr (congrArg ExpressionForm.call hcallee) harguments)
  | member object property =>
    simp only [ExpressionForm.inside, List.forall_mem_cons, readBack_expression] at hinside
    obtain ⟨⟨hobject, -⟩, -⟩ := hinside
    exact hmade (congrArg (ExpressionForm.member · property.bare) hobject)
  | index object key =>
    simp only [ExpressionForm.inside, List.forall_mem_cons, readBack_expression] at hinside
    obtain ⟨⟨hobject, -⟩, ⟨hkey, -⟩, -⟩ := hinside
    exact hmade (congr (congrArg ExpressionForm.index hobject) hkey)
  | slice object start stop =>
    simp only [ExpressionForm.inside, List.forall_mem_cons, List.forall_mem_append,
      forall_mem_map_toList] at hinside
    obtain ⟨hobject, hstart, hstop⟩ := hinside
    have hobject := (readBack_expression.mp hobject).1
    exact hmade (congr (congr (congrArg ExpressionForm.slice hobject) (bound_read hstart))
      (bound_read hstop))

/-- A tree that can be run is read back. -/
theorem SyntaxNode.Runs.readBack {node : SyntaxNode} (hruns : node.Runs) : node.ReadBack := by
  refine hruns.induction fun node hruns hinside indent => ?_
  cases node with
  | program value =>
    rw [children, List.forall_mem_map] at hinside
    obtain ⟨statements, sourceFile, span⟩ := value
    have hstatements := statements_readAll 2 hinside
    cases statements with
    | nil => rfl
    | cons first others => exact hstatements
  | statement value =>
    obtain ⟨form, span⟩ := value
    rw [children, StatementForm.nodes] at hinside
    have hform : (form.sexpr indent).read.statement.form = form.bare true := by
      split at hinside
      · exact List.forall_mem_singleton.mp hinside indent
      · exact StatementForm.form_read hinside indent
    exact (statement_read _).trans (congrArg (Statement.mk · default) hform)
  | form value span => exact StatementForm.form_read hinside indent
  | block value =>
    rw [children, List.forall_mem_map] at hinside
    obtain ⟨statements, span⟩ := value
    exact block_read_ofStatements (indent + 2) hinside
  | branch value =>
    simp only [children, List.forall_mem_cons, readBack_expression, readBack_block] at hinside
    obtain ⟨⟨hcondition, -⟩, hbody, -⟩ := hinside
    obtain ⟨condition, body, span⟩ := value
    exact congr (congrArg (fun c b => Branch.mk c b default) hcondition) (hbody indent)
  | function value =>
    simp only [children, List.forall_mem_cons, List.forall_mem_append, readBack_block] at hinside
    obtain ⟨-, -, hbody, -⟩ := hinside
    obtain ⟨name, parameters, body, span⟩ := value
    have hfunction : FunctionDeclaration.mk name.bare (names parameters).read.names
        (body.sexpr indent).read.block default =
          (FunctionDeclaration.mk name parameters body span).bare true := by
      rw [read_names, hbody, FunctionDeclaration.bare]
    exact ⟨hfunction, congrArg StatementForm.function hfunction⟩
  | struct value =>
    exact congrArg (fun p => StatementForm.struct ⟨value.name.bare, p, default⟩)
      (read_names value.properties)
  | importing value =>
    obtain ⟨path, alias?, span⟩ := value
    have hpath := unquoted_quoted path
    cases alias? with
    | none => exact congrArg (fun p => StatementForm.importing ⟨p, none, default⟩) hpath
    | some name =>
      exact congrArg (fun p => StatementForm.importing ⟨p, some name.bare, default⟩) hpath
  | identifier value => exact leaf_name hruns.runnable
  | expression value =>
    obtain ⟨form, span⟩ := value
    have hform := ExpressionForm.form_read hruns.runnable hinside
    exact ⟨hform, ExpressionForm.statement_read.trans (congrArg StatementForm.expression hform)⟩
  | entry value =>
    obtain ⟨key, inner, span⟩ := value
    have hinner := (readBack_expression.mp (List.forall_mem_singleton.mp hinside)).1
    exact congr (congrArg (fun k v => DictionaryEntry.mk k v default) (unquoted_quoted key)) hinner
  | field value =>
    simp only [children, List.forall_mem_cons, readBack_expression] at hinside
    obtain ⟨-, ⟨hinner, -⟩, -⟩ := hinside
    obtain ⟨name, inner, span⟩ := value
    exact congrArg (fun v => StructField.mk name.bare v default) hinner

end Kestrel
