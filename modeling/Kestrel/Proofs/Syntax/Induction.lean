import Kestrel.Proofs.Syntax.Node

/-!
# Induction on syntax trees

The nodes right inside a node are smaller than it. So what holds of a node whenever it holds of the
nodes right inside holds of every node.
-/

namespace Kestrel

namespace SyntaxNode

/-- How large a node is. The span of a statement and that of its form do not count. -/
noncomputable def size : SyntaxNode → Nat
  | program value => sizeOf value.statements + 1
  | statement value => sizeOf value.form + 1
  | form value _ => sizeOf value
  | block value => sizeOf value.statements + 1
  | branch value => sizeOf value
  | function value => sizeOf value
  | struct _ | importing _ => 1
  | identifier _ => 0
  | expression value => sizeOf value.form + 1
  | entry value => sizeOf value
  | field value => sizeOf value

/-- An identifier counts for nothing, as no tree is inside. -/
theorem size_identifier (value : Identifier) : (identifier value).size = 0 := rfl

variable {child : SyntaxNode}

section Members

variable {α : Type} [SizeOf α] {make : α → SyntaxNode} {items : List α}

/-- A node that is made of a member of a list is smaller than the list. -/
theorem size_lt_of_mem_map (hmake : ∀ item, (make item).size ≤ sizeOf item)
    (hchild : child ∈ items.map make) : child.size < sizeOf items := by
  obtain ⟨item, hitem, rfl⟩ := List.mem_map.mp hchild
  exact Nat.lt_of_le_of_lt (hmake item) (List.sizeOf_lt_of_mem hitem)

/-- A node that is made of what may be missing is smaller than that. -/
theorem size_lt_of_mem_toList {item? : Option α} (hmake : ∀ item, (make item).size ≤ sizeOf item)
    (hchild : child ∈ (item?.map make).toList) : child.size < sizeOf item? := by
  cases item? with
  | none => cases hchild
  | some item =>
    obtain rfl := List.mem_singleton.mp hchild
    have hle := hmake item
    rw [Option.some.sizeOf_spec]
    omega

end Members

/-- A statement's node is no larger than the statement. -/
theorem size_statement_le (value : Statement) : (statement value).size ≤ sizeOf value := by
  cases value
  simp only [size, Statement.mk.sizeOf_spec]
  omega

/-- A block's node is no larger than the block. -/
theorem size_block_le (value : Block) : (block value).size ≤ sizeOf value := by
  cases value
  simp only [size, Block.mk.sizeOf_spec]
  omega

/-- An expression's node is no larger than the expression. -/
theorem size_expression_le (value : Expression) : (expression value).size ≤ sizeOf value := by
  cases value
  simp only [size, Expression.mk.sizeOf_spec]
  omega

/-- What is right inside a form of statement is smaller. -/
theorem size_lt_of_mem_statementForm {form : StatementForm} (hchild : child ∈ form.inside) :
    child.size < sizeOf form := by
  cases form with
  | var name value span =>
    have hvalue := size_expression_le value
    simp only [StatementForm.inside, List.mem_cons, List.not_mem_nil, or_false] at hchild
    rw [StatementForm.var.sizeOf_spec]
    rcases hchild with rfl | rfl
    · rw [size_identifier]
      omega
    · omega
  | assignment target operator value span =>
    have htarget := size_expression_le target
    have hvalue := size_expression_le value
    simp only [StatementForm.inside, List.mem_cons, List.not_mem_nil, or_false] at hchild
    rw [StatementForm.assignment.sizeOf_spec]
    rcases hchild with rfl | rfl <;> omega
  | expression value =>
    have hvalue := size_expression_le value
    obtain rfl := List.mem_singleton.mp hchild
    rw [StatementForm.expression.sizeOf_spec]
    omega
  | conditional branches otherwise span =>
    rw [StatementForm.conditional.sizeOf_spec]
    rcases List.mem_append.mp hchild with hbranch | hblock
    · have hlt := size_lt_of_mem_map (fun _ => Nat.le_refl _) hbranch
      omega
    · have hlt := size_lt_of_mem_toList size_block_le hblock
      omega
  | loop body span =>
    have hbody := size_block_le body
    obtain rfl := List.mem_singleton.mp hchild
    rw [StatementForm.loop.sizeOf_spec]
    omega
  | forEach index item iterable body span =>
    have hiterable := size_expression_le iterable
    have hbody := size_block_le body
    rw [StatementForm.forEach.sizeOf_spec]
    rcases List.mem_append.mp hchild with hindex | hother
    · have hlt := size_lt_of_mem_toList (fun _ => Nat.zero_le _) hindex
      omega
    · simp only [List.mem_cons, List.not_mem_nil, or_false] at hother
      rcases hother with rfl | rfl | rfl
      · rw [size_identifier]
        omega
      · omega
      · omega
  | function declaration =>
    obtain rfl := List.mem_singleton.mp hchild
    simp only [size, StatementForm.function.sizeOf_spec]
    omega
  | struct declaration =>
    obtain rfl := List.mem_singleton.mp hchild
    cases declaration
    simp only [size, StatementForm.struct.sizeOf_spec, StructDeclaration.mk.sizeOf_spec]
    omega
  | method structName declaration span =>
    simp only [StatementForm.inside, List.mem_cons, List.not_mem_nil, or_false] at hchild
    rw [StatementForm.method.sizeOf_spec]
    rcases hchild with rfl | rfl <;> simp only [size] <;> omega
  | attempt body catchBlock finallyBlock span =>
    have hbody := size_block_le body
    rw [StatementForm.attempt.sizeOf_spec]
    rcases List.mem_cons.mp hchild with rfl | hclause
    · omega
    · rcases List.mem_append.mp hclause with hcatch | hfinally
      · have hlt := size_lt_of_mem_toList size_block_le hcatch
        omega
      · have hlt := size_lt_of_mem_toList size_block_le hfinally
        omega
  | returning value =>
    have hlt := size_lt_of_mem_toList size_expression_le hchild
    rw [StatementForm.returning.sizeOf_spec]
    omega
  | breaking => cases hchild
  | continuing => cases hchild
  | importing declaration =>
    obtain rfl := List.mem_singleton.mp hchild
    cases declaration
    simp only [size, StatementForm.importing.sizeOf_spec, ImportDeclaration.mk.sizeOf_spec]
    omega

/-- What is right inside a form of expression is no larger. -/
theorem size_le_of_mem_expressionForm {form : ExpressionForm} {span : Span}
    (hchild : child ∈ form.inside span) : child.size ≤ sizeOf form := by
  cases form with
  | number value => cases hchild
  | string value => cases hchild
  | boolean value => cases hchild
  | nothing => cases hchild
  | identifier name =>
    obtain rfl := List.mem_singleton.mp hchild
    exact Nat.zero_le _
  | array elements =>
    have hlt := size_lt_of_mem_map size_expression_le hchild
    rw [ExpressionForm.array.sizeOf_spec]
    omega
  | dictionary entries =>
    have hlt := size_lt_of_mem_map (fun _ => Nat.le_refl _) hchild
    rw [ExpressionForm.dictionary.sizeOf_spec]
    omega
  | structLiteral target fields =>
    have htarget := size_expression_le target
    rw [ExpressionForm.structLiteral.sizeOf_spec]
    rcases List.mem_cons.mp hchild with rfl | hfield
    · omega
    · have hlt := size_lt_of_mem_map (fun _ => Nat.le_refl _) hfield
      omega
  | function parameters body =>
    have hbody := size_block_le body
    rw [ExpressionForm.function.sizeOf_spec]
    rcases List.mem_append.mp hchild with hname | hblock
    · have hlt := size_lt_of_mem_map (fun _ => Nat.zero_le _) hname
      omega
    · obtain rfl := List.mem_singleton.mp hblock
      omega
  | binary left operator right =>
    have hleft := size_expression_le left
    have hright := size_expression_le right
    simp only [ExpressionForm.inside, List.mem_cons, List.not_mem_nil, or_false] at hchild
    rw [ExpressionForm.binary.sizeOf_spec]
    rcases hchild with rfl | rfl <;> omega
  | unary operator operand =>
    have hoperand := size_expression_le operand
    obtain rfl := List.mem_singleton.mp hchild
    rw [ExpressionForm.unary.sizeOf_spec]
    omega
  | ternary condition thenValue elseValue =>
    have hcondition := size_expression_le condition
    have hthen := size_expression_le thenValue
    have helse := size_expression_le elseValue
    simp only [ExpressionForm.inside, List.mem_cons, List.not_mem_nil, or_false] at hchild
    rw [ExpressionForm.ternary.sizeOf_spec]
    rcases hchild with rfl | rfl | rfl <;> omega
  | call callee arguments =>
    have hcallee := size_expression_le callee
    rw [ExpressionForm.call.sizeOf_spec]
    rcases List.mem_cons.mp hchild with rfl | hargument
    · omega
    · have hlt := size_lt_of_mem_map size_expression_le hargument
      omega
  | member object property =>
    have hobject := size_expression_le object
    simp only [ExpressionForm.inside, List.mem_cons, List.not_mem_nil, or_false] at hchild
    rw [ExpressionForm.member.sizeOf_spec]
    rcases hchild with rfl | rfl
    · omega
    · exact Nat.zero_le _
  | index object key =>
    have hobject := size_expression_le object
    have hkey := size_expression_le key
    simp only [ExpressionForm.inside, List.mem_cons, List.not_mem_nil, or_false] at hchild
    rw [ExpressionForm.index.sizeOf_spec]
    rcases hchild with rfl | rfl <;> omega
  | slice object start stop =>
    have hobject := size_expression_le object
    rw [ExpressionForm.slice.sizeOf_spec]
    rcases List.mem_cons.mp hchild with rfl | hbound
    · omega
    · rcases List.mem_append.mp hbound with hstart | hstop
      · have hlt := size_lt_of_mem_toList size_expression_le hstart
        omega
      · have hlt := size_lt_of_mem_toList size_expression_le hstop
        omega

/-- What is right inside a node is smaller. -/
theorem size_lt_of_mem_children {node : SyntaxNode} (hchild : child ∈ node.children) :
    child.size < node.size := by
  cases node with
  | program value => exact Nat.lt_succ_of_lt (size_lt_of_mem_map size_statement_le hchild)
  | statement value =>
    simp only [children, StatementForm.nodes] at hchild
    split at hchild
    · obtain rfl := List.mem_singleton.mp hchild
      exact Nat.lt_succ_self _
    · exact Nat.lt_succ_of_lt (size_lt_of_mem_statementForm hchild)
  | form value span => exact size_lt_of_mem_statementForm hchild
  | block value => exact Nat.lt_succ_of_lt (size_lt_of_mem_map size_statement_le hchild)
  | branch value =>
    cases value with
    | mk condition body span =>
      have hcondition := size_expression_le condition
      have hbody := size_block_le body
      simp only [children, List.mem_cons, List.not_mem_nil, or_false] at hchild
      change child.size < sizeOf (Branch.mk condition body span)
      rw [Branch.mk.sizeOf_spec]
      rcases hchild with rfl | rfl <;> omega
  | function value =>
    cases value with
    | mk name parameters body span =>
      have hbody := size_block_le body
      change child.size < sizeOf (FunctionDeclaration.mk name parameters body span)
      rw [FunctionDeclaration.mk.sizeOf_spec]
      rcases List.mem_cons.mp hchild with rfl | hother
      · rw [size_identifier]
        omega
      · rcases List.mem_append.mp hother with hname | hblock
        · have hlt : child.size < sizeOf parameters :=
            size_lt_of_mem_map (fun _ => Nat.zero_le _) hname
          omega
        · obtain rfl : child = block body := List.mem_singleton.mp hblock
          omega
  | struct value =>
    rcases List.mem_cons.mp hchild with rfl | hproperty
    · exact Nat.zero_lt_one
    · obtain ⟨property, -, rfl⟩ := List.mem_map.mp hproperty
      exact Nat.zero_lt_one
  | importing value =>
    simp only [children, Option.mem_toList, Option.map_eq_some_iff] at hchild
    obtain ⟨name, -, rfl⟩ := hchild
    exact Nat.zero_lt_one
  | identifier value => cases hchild
  | expression value => exact Nat.lt_succ_of_le (size_le_of_mem_expressionForm hchild)
  | entry value =>
    cases value with
    | mk key inner span =>
      have hinner := size_expression_le inner
      obtain rfl := List.mem_singleton.mp hchild
      change (expression inner).size < sizeOf (DictionaryEntry.mk key inner span)
      rw [DictionaryEntry.mk.sizeOf_spec]
      omega
  | field value =>
    cases value with
    | mk name inner span =>
      have hinner := size_expression_le inner
      simp only [children, List.mem_cons, List.not_mem_nil, or_false] at hchild
      change child.size < sizeOf (StructField.mk name inner span)
      rw [StructField.mk.sizeOf_spec]
      rcases hchild with rfl | rfl
      · rw [size_identifier]
        omega
      · omega

/-- What holds of a node whenever it holds of the nodes right inside holds of every node. -/
theorem induction {property : SyntaxNode → Prop}
    (step : ∀ node, (∀ child ∈ node.children, property child) → property node)
    (node : SyntaxNode) : property node := by
  induction hsize : node.size using Nat.strongRecOn generalizing node with
  | ind size ih =>
    refine step node fun child hchild => ih child.size ?_ child rfl
    exact hsize ▸ size_lt_of_mem_children hchild

end SyntaxNode

end Kestrel
