import Kestrel.Proofs.Syntax.Bare

/-!
# Bare trees are written alike

A tree without its spans has the S-expression of the tree itself, and merging what an S-expression
writes alike does not change it either.
-/

namespace Kestrel

variable {merged : Bool}

namespace SyntaxNode

/-- What is written without its spans as it is with them, in every place. -/
def WrittenAsBare (merged : Bool) (node : SyntaxNode) : Prop :=
  ∀ indent, (node.bare merged).sexpr indent = node.sexpr indent

/-- For a block this is meant with every indentation. -/
theorem writtenAsBare_block {value : Block} : (block value).WrittenAsBare merged ↔
    ∀ indent, (value.bare merged).sexpr indent = value.sexpr indent := Iff.rfl

/-- For a function this is meant with every indentation. -/
theorem writtenAsBare_function {value : FunctionDeclaration} :
    (function value).WrittenAsBare merged ↔
      ∀ indent, (value.bare merged).sexpr indent = value.sexpr indent := Iff.rfl

/-- An expression is written without an indentation. -/
theorem writtenAsBare_expression {value : Expression} : (expression value).WrittenAsBare merged ↔
    (value.bare merged).sexpr = value.sexpr :=
  ⟨fun hwritten => hwritten 0, fun hwritten _ => hwritten⟩

/-- An entry is written without an indentation. -/
theorem writtenAsBare_entry {value : DictionaryEntry} : (entry value).WrittenAsBare merged ↔
    (value.bare merged).sexpr = value.sexpr :=
  ⟨fun hwritten => hwritten 0, fun hwritten _ => hwritten⟩

/-- A field is written without an indentation. -/
theorem writtenAsBare_field {value : StructField} : (field value).WrittenAsBare merged ↔
    (value.bare merged).sexpr = value.sexpr :=
  ⟨fun hwritten => hwritten 0, fun hwritten _ => hwritten⟩

end SyntaxNode

open SyntaxNode

section Lists

variable {α : Type} {items : List α} {item? : Option α} {make : α → SyntaxNode}

/-- What holds of nodes that are made of what may be missing. -/
theorem forall_mem_map_toList {property : SyntaxNode → Prop} :
    (∀ node ∈ (item?.map make).toList, property node) ↔ ∀ item ∈ item?, property (make item) := by
  cases item? <;> simp

/-- Items that are written alike without their spans. -/
theorem map_map_eq {bare : α → α} {sexpr : α → Sexpr}
    (hsame : ∀ item ∈ items, sexpr (bare item) = sexpr item) :
    (items.map bare).map sexpr = items.map sexpr := by
  rw [List.map_map]
  exact List.map_congr_left hsame

/-- What may be missing and is written alike without its spans. -/
theorem toList_map_map_eq {bare : α → α} {sexpr : α → Sexpr}
    (hsame : ∀ item ∈ item?, sexpr (bare item) = sexpr item) :
    ((item?.map bare).map sexpr).toList = (item?.map sexpr).toList := by
  cases item? with
  | none => rfl
  | some item => exact congrArg ([·]) (hsame item rfl)

/-- Names are written alike without their spans. -/
theorem names_map_bare (identifiers : List Identifier) :
    Sexpr.names (identifiers.map Identifier.bare) = Sexpr.names identifiers := by
  rw [Sexpr.names, Sexpr.names, List.map_map]
  rfl

/-- Statements are written alike without their spans. -/
theorem statementSexprs_bare {statements : List Statement} (indent : Nat)
    (hwritten : ∀ one ∈ statements, (SyntaxNode.statement one).WrittenAsBare merged) :
    statementSexprs indent (bareStatements merged statements) =
      statementSexprs indent statements := by
  rw [bareStatements_eq, statementSexprs_eq, statementSexprs_eq]
  exact map_map_eq fun one hone => hwritten one hone indent

/-- A clause that may be missing is written alike without its spans. -/
theorem optionalBlockSexpr_bare {block : Option Block} (head : String) (indent : Nat)
    (hwritten : ∀ inner ∈ block, (SyntaxNode.block inner).WrittenAsBare merged) :
    optionalBlockSexpr head indent (bareBlock? merged block) =
      optionalBlockSexpr head indent block := by
  rw [bareBlock?_eq, optionalBlockSexpr_eq, optionalBlockSexpr_eq]
  exact toList_map_map_eq fun inner hinner =>
    congrArg (fun s => Sexpr.headed head [s]) (hwritten inner hinner indent)

/-- A bound of a slice is written alike without its spans: the name that stands for a missing bound
is written as one. -/
theorem boundSexpr_bare {bound : Option Expression}
    (hwritten : ∀ value ∈ bound, (SyntaxNode.expression value).WrittenAsBare merged) :
    boundSexpr (bareBound merged bound) = boundSexpr bound := by
  cases bound with
  | none => rfl
  | some value =>
    rw [bareBound]
    split
    · next hblank =>
      replace hblank := (Bool.and_eq_true_iff.mp hblank).2
      obtain ⟨form, span⟩ := value
      cases form with
      | identifier name =>
        rw [beq_iff_eq.mp hblank]
        rfl
      | _ => cases hblank
    · exact hwritten value rfl 0

end Lists

/-- A form of statement is written alike without its spans if what is inside is. -/
theorem StatementForm.sexpr_bare {form : StatementForm}
    (hinside : ∀ child ∈ form.inside, child.WrittenAsBare merged) (indent : Nat) :
    (form.bare merged).sexpr indent = form.sexpr indent := by
  cases form with
  | conditional branches otherwise span =>
    obtain ⟨hbranches, hotherwise⟩ := List.forall_mem_append.mp hinside
    simp only [List.forall_mem_map, forall_mem_map_toList] at hbranches hotherwise
    rw [StatementForm.bare, StatementForm.sexpr, StatementForm.sexpr,
      optionalBlockSexpr_bare _ _ hotherwise, bareBranches_eq, branchSexprs_eq, branchSexprs_eq,
      map_map_eq fun branch hbranch => hbranches branch hbranch (indent + 2)]
  | forEach index item iterable body span =>
    simp only [StatementForm.inside, List.forall_mem_append, List.forall_mem_cons,
      writtenAsBare_expression, writtenAsBare_block] at hinside
    have hnames : Sexpr.names ((index.map Identifier.bare).toList ++ [item.bare]) =
        Sexpr.names (index.toList ++ [item]) := by
      rw [← names_map_bare (index.toList ++ [item])]
      cases index <;> rfl
    simp only [StatementForm.bare, StatementForm.sexpr, hnames, hinside]
  | attempt body catchBlock finallyBlock span =>
    obtain ⟨hbody, hclauses⟩ := List.forall_mem_cons.mp hinside
    obtain ⟨hcatch, hfinally⟩ := List.forall_mem_append.mp hclauses
    rw [forall_mem_map_toList] at hcatch hfinally
    rw [writtenAsBare_block] at hbody
    rw [StatementForm.bare, StatementForm.sexpr, StatementForm.sexpr, hbody,
      optionalBlockSexpr_bare _ _ hcatch, optionalBlockSexpr_bare _ _ hfinally]
  | returning value =>
    cases value with
    | none => rfl
    | some value =>
      have hvalue := writtenAsBare_expression.mp (List.forall_mem_singleton.mp hinside)
      exact congrArg (fun s => Sexpr.headed "return" [s]) hvalue
  | breaking => rfl
  | importing declaration =>
    obtain ⟨path, alias?, span⟩ := declaration
    cases alias? <;> rfl
  | _ =>
    simp only [StatementForm.inside, List.forall_mem_cons, writtenAsBare_expression,
      writtenAsBare_block, writtenAsBare_function] at hinside
    simp only [StatementForm.bare, StatementForm.sexpr, Identifier.bare, hinside, names_map_bare]

/-- A form of expression is written alike without its spans if what is inside is. -/
theorem ExpressionForm.sexpr_bare {form : ExpressionForm} {span : Span}
    (hinside : ∀ child ∈ form.inside span, child.WrittenAsBare merged) :
    (form.bare merged).sexpr = form.sexpr := by
  cases form with
  | number value =>
    rw [ExpressionForm.bare]
    split
    · next hinfinite =>
      replace hinfinite := of_decide_eq_true (Bool.and_eq_true_iff.mp hinfinite).2
      have hformat : NumberLayout.plain.format value = "inf" := by
        rw [NumberLayout.format, hinfinite]
        rfl
      rw [ExpressionForm.sexpr, ExpressionForm.sexpr, hformat]
    · rfl
  | array elements =>
    simp only [ExpressionForm.inside, List.forall_mem_map, writtenAsBare_expression] at hinside
    simp only [ExpressionForm.bare, ExpressionForm.sexpr, bareExpressions_eq,
      expressionSexprs_eq, map_map_eq hinside]
  | dictionary entries =>
    simp only [ExpressionForm.inside, List.forall_mem_map, writtenAsBare_entry] at hinside
    simp only [ExpressionForm.bare, ExpressionForm.sexpr, bareEntries_eq, entrySexprs_eq,
      map_map_eq hinside]
  | structLiteral target fields =>
    simp only [ExpressionForm.inside, List.forall_mem_cons, List.forall_mem_map,
      writtenAsBare_expression, writtenAsBare_field] at hinside
    simp only [ExpressionForm.bare, ExpressionForm.sexpr, bareFields_eq, fieldSexprs_eq, hinside.1,
      map_map_eq hinside.2]
  | call callee arguments =>
    simp only [ExpressionForm.inside, List.forall_mem_cons, List.forall_mem_map,
      writtenAsBare_expression] at hinside
    simp only [ExpressionForm.bare, ExpressionForm.sexpr, bareExpressions_eq,
      expressionSexprs_eq, hinside.1, map_map_eq hinside.2]
  | slice object start stop =>
    obtain ⟨hobject, hbounds⟩ := List.forall_mem_cons.mp hinside
    obtain ⟨hstart, hstop⟩ := List.forall_mem_append.mp hbounds
    rw [forall_mem_map_toList] at hstart hstop
    rw [writtenAsBare_expression] at hobject
    rw [ExpressionForm.bare, ExpressionForm.sexpr, ExpressionForm.sexpr, hobject,
      boundSexpr_bare hstart, boundSexpr_bare hstop]
  | function parameters body =>
    simp only [ExpressionForm.inside, List.forall_mem_append, List.forall_mem_cons,
      writtenAsBare_block] at hinside
    simp only [ExpressionForm.bare, ExpressionForm.sexpr, hinside, names_map_bare]
  | nothing => rfl
  | _ =>
    simp only [ExpressionForm.inside, List.forall_mem_cons, writtenAsBare_expression] at hinside
    simp only [ExpressionForm.bare, ExpressionForm.sexpr, Identifier.bare, hinside]

/-- Every node is written alike without its spans. -/
theorem SyntaxNode.writtenAsBare (merged : Bool) (node : SyntaxNode) :
    node.WrittenAsBare merged := by
  induction node using SyntaxNode.induction with
  | step node hinside =>
    intro indent
    cases node with
    | program value =>
      rw [children, List.forall_mem_map] at hinside
      obtain ⟨statements, sourceFile, span⟩ := value
      cases statements with
      | nil => rfl
      | cons first others =>
        exact congrArg (Sexpr.lines "program" 2) (statementSexprs_bare 2 hinside)
    | statement value =>
      obtain ⟨form, span⟩ := value
      rw [children, StatementForm.nodes] at hinside
      split at hinside
      · exact List.forall_mem_singleton.mp hinside indent
      · exact StatementForm.sexpr_bare hinside indent
    | form value span => exact StatementForm.sexpr_bare hinside indent
    | block value =>
      rw [children, List.forall_mem_map] at hinside
      obtain ⟨statements, span⟩ := value
      exact congrArg (Sexpr.ofStatements (indent + 2)) (statementSexprs_bare (indent + 2) hinside)
    | branch value =>
      simp only [children, List.forall_mem_cons, writtenAsBare_expression,
        writtenAsBare_block] at hinside
      obtain ⟨condition, body, span⟩ := value
      change (Branch.bare merged _).sexpr indent = _
      simp only [Branch.bare, Branch.sexpr, hinside]
      rfl
    | function value =>
      simp only [children, List.forall_mem_cons, List.forall_mem_append, writtenAsBare_block]
        at hinside
      obtain ⟨name, parameters, body, span⟩ := value
      change (FunctionDeclaration.bare merged _).sexpr indent = FunctionDeclaration.sexpr indent _
      simp only [FunctionDeclaration.bare, FunctionDeclaration.sexpr, names_map_bare, hinside]
      rfl
    | struct value =>
      change ((StatementForm.struct value).bare merged).sexpr indent = _
      simp only [StatementForm.bare, StatementForm.sexpr, Identifier.bare, names_map_bare]
      rfl
    | importing value =>
      obtain ⟨path, alias?, span⟩ := value
      cases alias? <;> rfl
    | identifier value => rfl
    | expression value =>
      obtain ⟨form, span⟩ := value
      exact ExpressionForm.sexpr_bare hinside
    | entry value =>
      obtain ⟨key, inner, span⟩ := value
      have hinner := writtenAsBare_expression.mp (List.forall_mem_singleton.mp hinside)
      exact congrArg (fun s => Sexpr.row [.atom (quoted key), s]) hinner
    | field value =>
      obtain ⟨name, inner, span⟩ := value
      obtain ⟨-, hinside'⟩ := List.forall_mem_cons.mp hinside
      have hinner := writtenAsBare_expression.mp (List.forall_mem_singleton.mp hinside')
      exact congrArg (fun s => Sexpr.row [.atom name.name, s]) hinner

/-- A program is written alike without its spans. -/
theorem Program.sexprText_bare (merged : Bool) (program : Program) :
    (program.bare merged).sexprText = program.sexprText := by
  have hwritten : (program.bare merged).sexpr = program.sexpr :=
    (SyntaxNode.program program).writtenAsBare merged 0
  rw [sexprText, sexprText, hwritten]

end Kestrel
