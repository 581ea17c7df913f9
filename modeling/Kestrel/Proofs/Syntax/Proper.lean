import Kestrel.Proofs.Number.Plain
import Kestrel.Proofs.Syntax.Alike
import Kestrel.Proofs.Syntax.Rendering
import Kestrel.Proofs.Syntax.Runnable

/-!
# S-expressions of trees are proper

The S-expression of a tree that can be run is made of words, quoted texts and lists: its names and
its numbers are words.
-/

namespace Kestrel

open SyntaxNode

/-- What holds of a node in whose tree everything is as it is relied on, whenever it holds of the
nodes right inside, holds of every such node. -/
theorem SyntaxNode.Runs.induction {property : SyntaxNode → Prop}
    (hstep : ∀ node : SyntaxNode, node.Runs → (∀ child ∈ node.children, property child) →
      property node) {node : SyntaxNode} (hruns : node.Runs) : property node := by
  induction node using SyntaxNode.induction with
  | step node ih =>
    exact hstep node hruns fun child hchild => ih child hchild (hruns.inside child hchild)

namespace Sexpr

instance : DecidablePred IsWord := fun text =>
  decidable_of_iff (text ≠ "" ∧ text.toList.all isWordChar)
    ⟨fun ⟨hnonempty, hmade⟩ => ⟨hnonempty, List.all_eq_true.mp hmade⟩,
      fun ⟨hnonempty, hmade⟩ => ⟨hnonempty, List.all_eq_true.mpr hmade⟩⟩

variable {items : List Sexpr} {head : String}

/-- A name is a word. -/
theorem isWord_of_isName {name : String} (hisName : IsName name) : IsWord name where
  nonempty := by
    rintro rfl
    exact absurd hisName.start (by decide)
  made := fun c hc => @isWordChar_of_kind isNameChar (by decide) c (hisName.made c hc)

/-- The text of a number is a word. -/
theorem isWord_format {x : Float} (hnumber : x.isNaN = false) :
    IsWord (NumberLayout.plain.format x) := by
  obtain ⟨negative, text, htext, hcases⟩ := NumberLayout.plain_format_eq hnumber
  have hword : text ≠ [] ∧ ∀ c ∈ text, isWordChar c := by
    rcases hcases with ⟨-, rfl⟩ | ⟨m, e, -, rfl⟩
    · exact ⟨by decide, List.all_eq_true.mp (by decide)⟩
    · obtain ⟨hfirst, hall⟩ := NumberLayout.isPointed_setMagnitude m e
      refine ⟨fun hnil => ?_, fun c hc => ?_⟩
      · rw [hnil] at hfirst
        cases hfirst
      · have hkind : (c.isDigit || c == '.') = true := by simpa using hall c hc
        exact @isWordChar_of_kind (fun c => c.isDigit || c == '.') (by decide) c hkind
  have hmade : (NumberLayout.plain.format x).toList ≠ [] ∧
      ∀ c ∈ (NumberLayout.plain.format x).toList, isWordChar c := by
    rw [htext]
    split_ifs
    · exact ⟨List.cons_ne_nil _ _, List.forall_mem_cons.mpr ⟨by decide, hword.2⟩⟩
    · exact hword
  exact ⟨fun hempty => hmade.1 (by rw [hempty]; rfl), hmade.2⟩

/-- A word with proper items behind it is proper. -/
theorem proper_headed (hword : IsWord head) (hinside : ∀ item ∈ items, item.Proper) :
    (headed head items).Proper :=
  .row (List.forall_mem_cons.mpr ⟨.word hword, hinside⟩)

/-- Proper items as statements are proper. -/
theorem proper_ofStatements (indent : Nat) (hinside : ∀ item ∈ items, item.Proper) :
    (ofStatements indent items).Proper := by
  cases items with
  | nil => exact proper_headed (by decide) hinside
  | cons first others =>
    cases others with
    | nil => exact proper_headed (by decide) hinside
    | cons second others => exact .lines (by decide) (List.cons_ne_nil _ _) hinside

/-- Names as a list are proper if each of them is. -/
theorem proper_names {identifiers : List Identifier}
    (hinside : ∀ name ∈ identifiers, (atom name.name).Proper) : (names identifiers).Proper :=
  .row (List.forall_mem_map.mpr hinside)

end Sexpr

open Sexpr

/-- The sign of an assignment is a word. -/
theorem isWord_symbol_assign (operator : AssignOperator) : IsWord operator.symbol := by
  cases operator <;> decide

/-- The sign of an operator with two operands is a word. -/
theorem isWord_symbol_binary (operator : BinaryOperator) : IsWord operator.symbol := by
  cases operator <;> decide

/-- The sign of an operator in front of its operand is a word. -/
theorem isWord_symbol_unary (operator : UnaryOperator) : IsWord operator.symbol := by
  cases operator <;> decide

namespace SyntaxNode

/-- What is written as a proper S-expression, in every place. -/
def WrittenProperly (node : SyntaxNode) : Prop := ∀ indent, (node.sexpr indent).Proper

/-- For a block this is meant with every indentation. -/
theorem writtenProperly_block {value : Block} : (block value).WrittenProperly ↔
    ∀ indent, (value.sexpr indent).Proper := Iff.rfl

/-- For a branch this is meant with every indentation. -/
theorem writtenProperly_branch {value : Branch} : (branch value).WrittenProperly ↔
    ∀ indent, (value.sexpr indent).Proper := Iff.rfl

/-- For a function this is meant with every indentation. -/
theorem writtenProperly_function {value : FunctionDeclaration} :
    (function value).WrittenProperly ↔ ∀ indent, (value.sexpr indent).Proper := Iff.rfl

/-- An identifier is written as its name. -/
theorem writtenProperly_identifier {value : Identifier} : (identifier value).WrittenProperly ↔
    (Sexpr.atom value.name).Proper := ⟨fun hwritten => hwritten 0, fun hwritten _ => hwritten⟩

/-- An expression is written without an indentation. -/
theorem writtenProperly_expression {value : Expression} : (expression value).WrittenProperly ↔
    value.sexpr.Proper := ⟨fun hwritten => hwritten 0, fun hwritten _ => hwritten⟩

/-- An entry is written without an indentation. -/
theorem writtenProperly_entry {value : DictionaryEntry} : (entry value).WrittenProperly ↔
    value.sexpr.Proper := ⟨fun hwritten => hwritten 0, fun hwritten _ => hwritten⟩

/-- A field is written without an indentation. -/
theorem writtenProperly_field {value : StructField} : (field value).WrittenProperly ↔
    value.sexpr.Proper := ⟨fun hwritten => hwritten 0, fun hwritten _ => hwritten⟩

end SyntaxNode

/-- A block that may be left out is written properly. -/
theorem proper_optionalBlockSexpr {block : Option Block} {head : String} (hword : IsWord head)
    (indent : Nat) (hwritten : ∀ inner ∈ block, ∀ indent, (inner.sexpr indent).Proper) :
    ∀ item ∈ optionalBlockSexpr head indent block, item.Proper := by
  cases block with
  | none => exact List.forall_mem_nil _
  | some inner =>
    exact List.forall_mem_singleton.mpr
      (proper_headed hword (List.forall_mem_singleton.mpr (hwritten inner rfl indent)))

/-- A bound that may be left out is written properly. -/
theorem proper_boundSexpr {bound : Option Expression}
    (hwritten : ∀ value ∈ bound, value.sexpr.Proper) :
    (boundSexpr bound).Proper := by
  cases bound with
  | none => exact .word (by decide)
  | some value => exact hwritten value rfl

/-- A form of statement is written properly if what is inside is. -/
theorem StatementForm.proper_sexpr {form : StatementForm}
    (hinside : ∀ child ∈ form.inside, child.WrittenProperly) (indent : Nat) :
    (form.sexpr indent).Proper := by
  cases form with
  | assignment target operator value span =>
    simp only [StatementForm.inside, List.forall_mem_cons, writtenProperly_expression] at hinside
    exact proper_headed (isWord_symbol_assign operator) (by simp [hinside])
  | expression value => exact List.forall_mem_singleton.mp hinside indent
  | conditional branches otherwise span =>
    simp only [StatementForm.inside, List.forall_mem_append, List.forall_mem_map,
      forall_mem_map_toList, writtenProperly_branch, writtenProperly_block] at hinside
    obtain ⟨hbranches, hotherwise⟩ := hinside
    refine proper_headed (by decide) (List.forall_mem_append.mpr
      ⟨?_, proper_optionalBlockSexpr (by decide) _ hotherwise⟩)
    rw [branchSexprs_eq, List.forall_mem_map]
    exact fun branch hbranch => hbranches branch hbranch (indent + 2)
  | forEach index item iterable body span =>
    simp only [StatementForm.inside, List.forall_mem_append, List.forall_mem_cons,
      forall_mem_map_toList, writtenProperly_identifier, writtenProperly_expression,
      writtenProperly_block] at hinside
    obtain ⟨hindex, hitem, hiterable, hbody, -⟩ := hinside
    have hnames : (names (index.toList ++ [item])).Proper :=
      proper_names (List.forall_mem_append.mpr
        ⟨by simpa using hindex, List.forall_mem_singleton.mpr hitem⟩)
    exact proper_headed (by decide) (by simp [hnames, hiterable, hbody])
  | function declaration => exact List.forall_mem_singleton.mp hinside indent
  | struct declaration => exact List.forall_mem_singleton.mp hinside indent
  | attempt body catchBlock finallyBlock span =>
    simp only [StatementForm.inside, List.forall_mem_cons, List.forall_mem_append,
      forall_mem_map_toList, writtenProperly_block] at hinside
    obtain ⟨hbody, hcatch, hfinally⟩ := hinside
    refine proper_headed (by decide) (List.forall_mem_cons.mpr ⟨hbody _, ?_⟩)
    exact List.forall_mem_append.mpr ⟨proper_optionalBlockSexpr (by decide) _ hcatch,
      proper_optionalBlockSexpr (by decide) _ hfinally⟩
  | returning value =>
    cases value with
    | none => exact proper_headed (by decide) (List.forall_mem_nil _)
    | some value =>
      have hvalue := List.forall_mem_singleton.mp hinside indent
      exact proper_headed (by decide) (List.forall_mem_singleton.mpr hvalue)
  | importing declaration => exact List.forall_mem_singleton.mp hinside indent
  | _ =>
    simp only [StatementForm.inside, List.forall_mem_cons, writtenProperly_identifier,
      writtenProperly_expression, writtenProperly_block, writtenProperly_function] at hinside
    exact proper_headed (by decide) (by simp [hinside])

/-- A form of expression is written properly if what is inside is. -/
theorem ExpressionForm.proper_sexpr {form : ExpressionForm} {span : Span}
    (hrunnable : form.Runnable) (hinside : ∀ child ∈ form.inside span, child.WrittenProperly) :
    form.sexpr.Proper := by
  cases form with
  | number value => exact .word (isWord_format hrunnable.number)
  | string value => exact .quoted value
  | boolean value => cases value <;> exact .word (by decide)
  | nothing => exact .word (by decide)
  | identifier name => exact List.forall_mem_singleton.mp hinside 0
  | array elements =>
    simp only [ExpressionForm.inside, List.forall_mem_map, writtenProperly_expression] at hinside
    rw [ExpressionForm.sexpr, expressionSexprs_eq]
    exact proper_headed (by decide) (List.forall_mem_map.mpr hinside)
  | dictionary entries =>
    simp only [ExpressionForm.inside, List.forall_mem_map, writtenProperly_entry] at hinside
    rw [ExpressionForm.sexpr, entrySexprs_eq]
    exact proper_headed (by decide) (List.forall_mem_map.mpr hinside)
  | structLiteral target fields =>
    simp only [ExpressionForm.inside, List.forall_mem_cons, List.forall_mem_map,
      writtenProperly_expression, writtenProperly_field] at hinside
    rw [ExpressionForm.sexpr, fieldSexprs_eq]
    exact proper_headed (by decide)
      (List.forall_mem_cons.mpr ⟨hinside.1, List.forall_mem_map.mpr hinside.2⟩)
  | call callee arguments =>
    simp only [ExpressionForm.inside, List.forall_mem_cons, List.forall_mem_map,
      writtenProperly_expression] at hinside
    rw [ExpressionForm.sexpr, expressionSexprs_eq]
    exact proper_headed (by decide)
      (List.forall_mem_cons.mpr ⟨hinside.1, List.forall_mem_map.mpr hinside.2⟩)
  | function parameters body =>
    simp only [ExpressionForm.inside, List.forall_mem_append, List.forall_mem_cons,
      List.forall_mem_map, writtenProperly_identifier, writtenProperly_block] at hinside
    exact proper_headed (by decide) (by simp [proper_names hinside.1, hinside])
  | binary left operator right =>
    simp only [ExpressionForm.inside, List.forall_mem_cons, writtenProperly_expression] at hinside
    exact proper_headed (isWord_symbol_binary operator) (by simp [hinside])
  | unary operator operand =>
    simp only [ExpressionForm.inside, List.forall_mem_cons, writtenProperly_expression] at hinside
    exact proper_headed (isWord_symbol_unary operator) (by simp [hinside])
  | slice object start stop =>
    simp only [ExpressionForm.inside, List.forall_mem_cons, List.forall_mem_append,
      forall_mem_map_toList, writtenProperly_expression] at hinside
    obtain ⟨hobject, hstart, hstop⟩ := hinside
    exact proper_headed (by decide)
      (by simp [hobject, proper_boundSexpr hstart, proper_boundSexpr hstop])
  | _ =>
    simp only [ExpressionForm.inside, List.forall_mem_cons, writtenProperly_identifier,
      writtenProperly_expression] at hinside
    exact proper_headed (by decide) (by simp [hinside])

/-- A tree that can be run is written as a proper S-expression. -/
theorem SyntaxNode.Runs.writtenProperly {node : SyntaxNode} (hruns : node.Runs) :
    node.WrittenProperly := by
  refine hruns.induction fun node hruns hinside indent => ?_
  cases node with
  | program value =>
    rw [children, List.forall_mem_map] at hinside
    obtain ⟨statements, sourceFile, span⟩ := value
    cases statements with
    | nil => exact proper_headed (by decide) (List.forall_mem_nil _)
    | cons first others =>
      refine .lines (by decide) (List.cons_ne_nil _ _) ?_
      rw [statementSexprs_eq, List.forall_mem_map]
      exact fun one hone => hinside one hone 2
  | statement value =>
    obtain ⟨form, span⟩ := value
    rw [children, StatementForm.nodes] at hinside
    split at hinside
    · exact List.forall_mem_singleton.mp hinside indent
    · exact StatementForm.proper_sexpr hinside indent
  | form value span => exact StatementForm.proper_sexpr hinside indent
  | block value =>
    rw [children, List.forall_mem_map] at hinside
    obtain ⟨statements, span⟩ := value
    refine proper_ofStatements _ ?_
    rw [statementSexprs_eq, List.forall_mem_map]
    exact fun one hone => hinside one hone (indent + 2)
  | branch value =>
    simp only [children, List.forall_mem_cons, writtenProperly_expression,
      writtenProperly_block] at hinside
    exact proper_headed (by decide) (by simp [hinside])
  | function value =>
    simp only [children, List.forall_mem_cons, List.forall_mem_append, List.forall_mem_map,
      writtenProperly_identifier, writtenProperly_block] at hinside
    obtain ⟨name, parameters, body, span⟩ := value
    exact proper_headed (by decide) (by simp [proper_names hinside.2.1, hinside])
  | struct value =>
    simp only [children, List.forall_mem_cons, List.forall_mem_map,
      writtenProperly_identifier] at hinside
    exact proper_headed (by decide) (by simp [proper_names hinside.2, hinside.1])
  | importing value =>
    simp only [children, forall_mem_map_toList, writtenProperly_identifier] at hinside
    refine proper_headed (by decide) (List.forall_mem_cons.mpr ⟨.quoted _, ?_⟩)
    simpa using hinside
  | identifier value => exact .word (isWord_of_isName hruns.runnable)
  | expression value =>
    obtain ⟨form, span⟩ := value
    exact ExpressionForm.proper_sexpr hruns.runnable hinside
  | entry value =>
    have hinner := writtenProperly_expression.mp (List.forall_mem_singleton.mp hinside)
    exact .row (by simp [Proper.quoted, hinner])
  | field value =>
    simp only [children, List.forall_mem_cons, writtenProperly_identifier,
      writtenProperly_expression] at hinside
    exact .row (by simp [hinside])

end Kestrel
