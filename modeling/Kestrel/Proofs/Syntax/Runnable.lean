import Kestrel.Proofs.Syntax.Promise

/-!
# Trees that can be run

When a tree is run, some of its nodes are relied on to be of a certain kind: what is assigned to can
be assigned to, an `if` has a branch, a struct literal has a field and names its struct by a path,
names are no reserved words, and literals are numbers that are not negative. All nodes of a parsed
tree are.
-/

namespace Kestrel

/-- A name, or a member of what such a path of names stands for. -/
inductive Expression.IsPath : Expression → Prop
  | name {name : String} {span : Span} : IsPath ⟨.identifier name, span⟩
  | member {object : Expression} {property : Identifier} {span : Span} (hinside : object.IsPath) :
      IsPath ⟨.member object property, span⟩

/-- What is relied on in a form of statement. -/
def StatementForm.Runnable : StatementForm → Prop
  | .assignment target _ _ _ => target.form.isAssignable
  | .conditional branches _ _ => branches ≠ []
  | _ => True

/-- What is relied on in a form of expression. -/
def ExpressionForm.Runnable : ExpressionForm → Prop
  | .structLiteral target fields => target.IsPath ∧ fields ≠ []
  | .number value => IsMagnitude value
  | _ => True

namespace SyntaxNode

/-- What is relied on in a node. -/
def Runnable : SyntaxNode → Prop
  | form value _ => value.Runnable
  | expression value => value.form.Runnable
  | identifier value => IsName value.name
  | _ => True

/-- A node in whose tree everything is as it is relied on. -/
def Runs (node : SyntaxNode) : Prop := ∀ inner, node.Contains inner → inner.Runnable

/-- Nodes in whose trees everything is as it is relied on. -/
def AllRun (nodes : List SyntaxNode) : Prop := ∀ node ∈ nodes, node.Runs

variable {node inner : SyntaxNode} {nodes more : List SyntaxNode}

/-- The root of such a tree is as it is relied on. -/
theorem Runs.runnable (hruns : node.Runs) : node.Runnable := hruns node .refl

/-- What is inside such a tree can be run, too. -/
theorem Runs.inside (hruns : node.Runs) : AllRun node.children :=
  fun _ hchild inner hcontains => hruns inner (.head hchild hcontains)

/-- A tree is put together from a node and the trees inside. -/
theorem Runs.intro (hhere : node.Runnable) (hinside : AllRun node.children) : node.Runs := by
  intro inner hcontains
  rcases hcontains.cases_head with rfl | ⟨child, hchild, hcontains⟩
  · exact hhere
  · exact hinside child hchild inner hcontains

@[simp] theorem allRun_nil : AllRun [] := List.forall_mem_nil _

@[simp] theorem allRun_cons : AllRun (node :: nodes) ↔ node.Runs ∧ AllRun nodes :=
  List.forall_mem_cons

@[simp] theorem allRun_append : AllRun (nodes ++ more) ↔ AllRun nodes ∧ AllRun more :=
  List.forall_mem_append

/-- Nodes that are made from items can be run if each of them can. -/
theorem allRun_map {α : Type} {make : α → SyntaxNode} {items : List α} :
    AllRun (items.map make) ↔ ∀ item ∈ items, (make item).Runs :=
  List.forall_mem_map

/-- A node alone can be run if it can. -/
theorem allRun_singleton : AllRun [node] ↔ node.Runs := List.forall_mem_singleton

/-- One node in whose tree everything is as it is relied on. -/
theorem allRun_of_inside (hrunnable : node.Runnable) (hinside : AllRun node.children) :
    AllRun [node] :=
  allRun_singleton.mpr (.intro hrunnable hinside)

/-- A name that stands for an expression. -/
theorem Runs.ofIdentifier {name : Identifier} (hruns : (identifier name).Runs) :
    (expression ⟨.identifier name.name, name.span⟩).Runs :=
  .intro trivial (allRun_singleton.mpr hruns)

end SyntaxNode

open SyntaxNode (Runs AllRun allRun_nil allRun_cons allRun_append allRun_map allRun_singleton
  allRun_of_inside)

/-- The nodes that a form of statement puts into the statement. -/
theorem StatementForm.allRun_nodes {form : StatementForm} (hrunnable : form.Runnable)
    (hinside : AllRun form.inside) : AllRun form.nodes := by
  unfold StatementForm.nodes
  split
  · exact allRun_singleton.mpr (.intro hrunnable hinside)
  · exact hinside

/-- What a statement that can be run does is as it is relied on, and so is everything inside. -/
theorem StatementForm.of_allRun_nodes {form : StatementForm} (hnodes : AllRun form.nodes) :
    form.Runnable ∧ AllRun form.inside := by
  unfold StatementForm.nodes at hnodes
  split at hnodes
  · next span _ =>
    have hform := allRun_singleton.mp hnodes
    exact ⟨hform.runnable, hform.inside⟩
  · next hspan =>
    refine ⟨?_, hnodes⟩
    cases form with
    | assignment _ _ _ _ => cases hspan
    | conditional _ _ _ => cases hspan
    | _ => trivial

/-- What a meaning brings into the tree can be run. -/
structure Meaning.Runs (meaning : Meaning) : Prop where
  nodes : AllRun meaning.nodes
  number : ∀ value, meaning = .number value → IsMagnitude value

/-- Whether a meaning is a number. -/
def Meaning.isNumber : Meaning → Bool
  | .number _ => true
  | _ => false

/-- A meaning that is no number is judged by its nodes. -/
theorem Meaning.Runs.of_nodes {meaning : Meaning} (hnodes : AllRun meaning.nodes)
    (hother : meaning.isNumber = false) : meaning.Runs := by
  refine ⟨hnodes, fun value heq => ?_⟩
  rw [heq] at hother
  contradiction

/-- A part of which everything that is made can be run. -/
structure Part.Runs (part : Part) : Prop where
  name : part.rule = .identifier → IsName part.text
  meaning : Gives part.meaning Meaning.Runs

namespace Part

variable {part : Part} {parts : List Part} {α : Type}

section Readers

/-- What is picked out of a meaning, if its nodes are those of the meaning. -/
theorem Runs.pick {pick : Meaning → Assembled α} {nodes : α → List SyntaxNode} (hruns : part.Runs)
    (hsame : ∀ meaning, Gives (pick meaning) fun made => nodes made = meaning.nodes) :
    Gives (part.meaning >>= pick) fun made => AllRun (nodes made) :=
  hruns.meaning.bind fun meaning hmeaning =>
    (hsame meaning).mono fun _ heq => heq ▸ hmeaning.nodes

/-- A part that can be run gives an expression that can. -/
theorem Runs.expression (hruns : part.Runs) :
    Gives part.expression fun made => AllRun [.expression made] :=
  hruns.pick fun meaning => by cases meaning <;> simp [misplaced, Meaning.nodes]

/-- A part that can be run gives a block that can. -/
theorem Runs.block (hruns : part.Runs) : Gives part.block fun made => AllRun [.block made] :=
  hruns.pick fun meaning => by cases meaning <;> simp [misplaced, Meaning.nodes]

/-- A part that can be run gives a statement that can. -/
theorem Runs.statement (hruns : part.Runs) :
    Gives part.statement fun made => AllRun [.statement made] :=
  hruns.pick fun meaning => by cases meaning <;> simp [misplaced, Meaning.nodes]

/-- A part that can be run gives names that are no reserved words. -/
theorem Runs.names (hruns : part.Runs) :
    Gives part.names fun made => AllRun (made.map .identifier) :=
  hruns.pick fun meaning => by cases meaning <;> simp [misplaced, Meaning.nodes]

/-- A part that can be run gives a function that can. -/
theorem Runs.function (hruns : part.Runs) :
    Gives part.function fun made => AllRun [.function made] :=
  hruns.pick fun meaning => by cases meaning <;> simp [misplaced, Meaning.nodes]

/-- A part that is an identifier gives a name that is no reserved word. -/
theorem Runs.identifier (hruns : part.Runs) :
    Gives part.identifier fun made => AllRun [.identifier made] := by
  unfold Part.identifier
  split
  · rename_i hrule
    have hname : (SyntaxNode.identifier ⟨part.text, part.span⟩).Runs :=
      .intro (hruns.name hrule) allRun_nil
    exact gives_ok.mpr (allRun_singleton.mpr hname)
  · exact gives_error

/-- The head of a postfix chain. -/
theorem Runs.primary (hruns : part.Runs) :
    Gives part.primary fun made => AllRun [.expression made] := by
  unfold Part.primary
  refine hruns.meaning.bind fun meaning hmeaning => ?_
  have hleaf {form : ExpressionForm} (hrunnable : form.Runnable)
      (hinside : form.inside part.span = []) : AllRun [.expression ⟨form, part.span⟩] := by
    have hinside' : AllRun (form.inside part.span) := by rw [hinside]; exact allRun_nil
    exact allRun_singleton.mpr (.intro hrunnable hinside')
  split
  · exact gives_ok.mpr (hleaf (hmeaning.number _ rfl) rfl)
  · exact gives_ok.mpr (hleaf trivial rfl)
  · exact gives_ok.mpr hmeaning.nodes
  · exact gives_ok.mpr (hleaf trivial rfl)
  · exact gives_ok.mpr (hleaf trivial rfl)
  · rename_i hrule
    have hname : (SyntaxNode.identifier ⟨part.text, part.span⟩).Runs :=
      .intro (hruns.name hrule) allRun_nil
    exact gives_ok.mpr (allRun_singleton.mpr hname.ofIdentifier)
  · exact gives_error

/-- A further member of a postfix chain. -/
theorem Runs.postfixAfter {object : Expression} (hruns : part.Runs)
    (hobject : AllRun [.expression object]) :
    Gives (Part.postfixAfter object part) fun made => AllRun [.expression made] := by
  unfold Part.postfixAfter
  refine hruns.meaning.bind fun meaning hmeaning => ?_
  have hall := allRun_append.mpr ⟨hobject, hmeaning.nodes⟩
  split
  all_goals first
    | exact gives_error
    | exact gives_ok.mpr (allRun_singleton.mpr (.intro trivial hall))

/-- An expression can be run with members behind it. -/
theorem allRun_postfixChain {object : Expression} (hobject : AllRun [.expression object])
    (hruns : ∀ part ∈ parts, part.Runs) :
    Gives (parts.foldlM Part.postfixAfter object) fun made => AllRun [.expression made] :=
  gives_foldlM hobject fun _ hmade part hpart => (hruns part hpart).postfixAfter hmade

/-- Reading a node from each of several parts. -/
theorem allRun_mapM {read : Part → Assembled α} {node : α → SyntaxNode}
    (hone : ∀ part : Part, part.Runs → Gives (read part) fun made => AllRun [node made])
    (hruns : ∀ part ∈ parts, part.Runs) :
    Gives (parts.mapM read) fun made => AllRun (made.map node) ∧ made.length = parts.length := by
  refine (gives_mapM fun part hpart => hone part (hruns part hpart)).mono fun made hmade => ?_
  refine ⟨allRun_map.mpr fun item hitem => ?_, hmade.2⟩
  exact allRun_singleton.mp (hmade.1 item hitem)

/-- Picking a node out of the meaning of each of several parts. -/
theorem allRun_picked {pick : Part → Meaning → Assembled α} (node : α → SyntaxNode)
    (hruns : ∀ part ∈ parts, part.Runs)
    (hsame : ∀ part meaning, Gives (pick part meaning) fun made => [node made] = meaning.nodes) :
    Gives (parts.mapM fun part => part.meaning >>= pick part) fun made =>
      AllRun (made.map node) ∧ made.length = parts.length :=
  allRun_mapM (fun part hpart => hpart.pick (hsame part)) hruns

/-- The bounds of a slice. -/
theorem allRun_sliceBounds (hruns : ∀ part ∈ parts, part.Runs) :
    Gives (sliceBounds parts) fun (start, stop) =>
      AllRun ((start.map .expression).toList ++ (stop.map .expression).toList) := by
  refine gives_foldlM (by simp) fun (start, stop) hbounds part hpart => ?_
  obtain ⟨hstart, hstop⟩ := allRun_append.mp hbounds
  refine (hruns part hpart).expression.bind fun bound hbound => ?_
  split
  · exact gives_pure.mpr (allRun_append.mpr ⟨hbound, hstop⟩)
  · exact gives_pure.mpr (allRun_append.mpr ⟨hstart, hbound⟩)
  · exact gives_error

/-- The clauses of an `if` add branches to those before them. -/
theorem allRun_addClauses {branch : Branch} (hbranch : AllRun [.branch branch])
    (hruns : ∀ part ∈ parts, part.Runs) :
    Gives (parts.foldlM addClause ([branch], none)) fun (branches, otherwise) =>
      AllRun (branches.map .branch ++ (otherwise.map .block).toList) ∧ branches ≠ [] := by
  refine gives_foldlM ⟨by simpa using hbranch, by simp⟩
    fun (branches, otherwise) hclauses part hpart => ?_
  obtain ⟨hall, hnonempty⟩ := hclauses
  obtain ⟨hbranches, hlast⟩ := allRun_append.mp hall
  unfold addClause
  refine (hruns part hpart).meaning.bind fun meaning hmeaning => ?_
  split
  · refine gives_ok.mpr ⟨?_, by simp⟩
    rw [List.map_append]
    have hmore := allRun_append.mpr ⟨hbranches, hmeaning.nodes⟩
    exact allRun_append.mpr ⟨hmore, hlast⟩
  · exact gives_ok.mpr ⟨allRun_append.mpr ⟨hbranches, hmeaning.nodes⟩, hnonempty⟩
  · exact gives_error

/-- A clause that may be missing. -/
theorem allRun_optionalClause (rule : Rule) (hruns : ∀ part ∈ parts, part.Runs) :
    Gives (optionalClause rule parts) fun (block, others) =>
      AllRun (block.map .block).toList ∧ ∀ part ∈ others, part.Runs := by
  unfold optionalClause
  split
  · exact gives_pure.mpr ⟨allRun_nil, List.forall_mem_nil _⟩
  · obtain ⟨hclause, hothers⟩ := List.forall_mem_cons.mp hruns
    split
    · exact hclause.block.bind fun block hblock => gives_pure.mpr ⟨hblock, hothers⟩
    · exact gives_pure.mpr ⟨allRun_nil, hruns⟩

end Readers

end Part

section Rows

/-- A member of a row of operands and operators. -/
def RowItem.Runs : RowItem → Prop
  | .operand value => AllRun [.expression value]
  | .unary _ _ | .binary _ => True

/-- What has been read of a row. -/
def RowState.Runs : RowState → Prop
  | .before _ => True
  | .after operand => AllRun [.expression operand]

/-- Operands that wait for the rest of their right side. -/
def WaitingOperands.Runs (waiting : WaitingOperands) : Prop :=
  ∀ operand ∈ waiting, AllRun [.expression operand.1]

/-- Operands that can be run can be so with an operator between them. -/
theorem Expression.allRun_joinBinary {left right : Expression} (operator : BinaryOperator)
    (hleft : AllRun [.expression left]) (hright : AllRun [.expression right]) :
    AllRun [.expression (left.joinBinary operator right)] :=
  allRun_singleton.mpr (.intro trivial (allRun_append.mpr ⟨hleft, hright⟩))

/-- An operand that can be run can be so with operators in front. -/
theorem Expression.allRun_applyUnary {operators : List (UnaryOperator × Span)}
    {operand : Expression} (hoperand : AllRun [.expression operand]) :
    AllRun [.expression (operators.foldl Expression.applyUnary operand)] := by
  induction operators generalizing operand with
  | nil => exact hoperand
  | cons operator operators ih => exact ih (allRun_singleton.mpr (.intro trivial hoperand))

/-- What is left when operators are closed can be run. -/
theorem WaitingOperands.Runs.closeOperations {level : Nat} {waiting : WaitingOperands}
    {right : Expression} (hwaiting : waiting.Runs) (hright : AllRun [.expression right]) :
    (closeOperations level waiting right).1.Runs ∧
      AllRun [.expression (closeOperations level waiting right).2] := by
  fun_induction Kestrel.closeOperations level waiting right with
  | case1 => exact ⟨hwaiting, hright⟩
  | case2 left operator waiting right _ ih =>
    obtain ⟨hleft, hothers⟩ := List.forall_mem_cons.mp hwaiting
    exact ih hothers (Expression.allRun_joinBinary operator hleft hright)
  | case3 => exact ⟨hwaiting, hright⟩

/-- The tree of a row can be run if the items of the row can. -/
theorem allRun_treeOfRow? {waiting : WaitingOperands} {state : RowState} {row : List RowItem}
    {tree : Expression} (hfound : treeOfRow? waiting state row = some tree)
    (hwaiting : waiting.Runs) (hstate : state.Runs) (hrow : ∀ item ∈ row, item.Runs) :
    AllRun [.expression tree] := by
  fun_induction Kestrel.treeOfRow? waiting state row with
  | case1 _ _ _ _ _ ih => exact ih hfound hwaiting trivial (List.forall_mem_cons.mp hrow).2
  | case2 _ _ _ _ ih =>
    obtain ⟨hvalue, hothers⟩ := List.forall_mem_cons.mp hrow
    exact ih hfound hwaiting (Expression.allRun_applyUnary hvalue) hothers
  | case3 waiting operand operator _ _ _ hclosed ih =>
    have hclose := @WaitingOperands.Runs.closeOperations operator.level _ _ hwaiting hstate
    rw [hclosed] at hclose
    exact ih hfound (List.forall_mem_cons.mpr ⟨hclose.2, hclose.1⟩) trivial
      (List.forall_mem_cons.mp hrow).2
  | case4 =>
    cases hfound
    exact (hwaiting.closeOperations hstate).2
  | case5 => contradiction

/-- A row of operands and operators becomes a tree. -/
theorem Part.allRun_row {parts : List Part} (hruns : ∀ part ∈ parts, part.Runs) :
    Gives (parts.mapM Part.rowItem) fun row =>
      ∀ tree, Expression.ofRow? row = some tree → AllRun [.expression tree] := by
  have hitem : ∀ part ∈ parts, Gives part.rowItem RowItem.Runs := by
    intro part hpart
    unfold Part.rowItem
    split
    · exact gives_ok.mpr trivial
    · exact gives_ok.mpr trivial
    · exact (hruns part hpart).expression.bind fun _ hvalue => gives_pure.mpr hvalue
  refine (gives_mapM hitem).mono fun row hrow tree hfound => ?_
  exact allRun_treeOfRow? hfound (List.forall_mem_nil _) trivial hrow.1

end Rows

/-- A chain of names is a path. -/
theorem memberChain_runs {root : Identifier} {members : List Identifier}
    (hruns : AllRun ((root :: members).map .identifier)) :
    AllRun [.expression (memberChain root members)] ∧ (memberChain root members).IsPath := by
  obtain ⟨hroot, hmembers⟩ := allRun_cons.mp hruns
  have hchain {object : Expression} (hobject : AllRun [.expression object])
      (hpath : object.IsPath) :
      AllRun [.expression (members.foldl (fun object property =>
        ⟨.member object property, object.span.join property.span⟩) object)] ∧
      (members.foldl (fun object property =>
        ⟨.member object property, object.span.join property.span⟩) object).IsPath := by
    clear hruns
    induction members generalizing object with
    | nil => exact ⟨hobject, hpath⟩
    | cons property members ih =>
      obtain ⟨hproperty, hothers⟩ := allRun_cons.mp hmembers
      refine ih hothers (allRun_singleton.mpr (.intro trivial ?_)) (.member hpath)
      exact allRun_append.mpr ⟨hobject, allRun_singleton.mpr hproperty⟩
  exact hchain (allRun_singleton.mpr hroot.ofIdentifier) .name

section Shapes

variable {β : Type} {property : β → Prop} {name value tail body parameters : Part}
  {parts : List Part}

/-- What is made from one expression. -/
theorem Part.Runs.oneValue {make : Expression → β} (hvalue : value.Runs)
    (hmake : ∀ made, AllRun [.expression made] → property (make made)) :
    Gives (do return make (← value.expression)) property :=
  hvalue.expression.bind fun made hmade => gives_pure.mpr (hmake made hmade)

/-- What is made from one block. -/
theorem Part.Runs.oneBody {make : Block → β} (hbody : body.Runs)
    (hmake : ∀ made, AllRun [.block made] → property (make made)) :
    Gives (do return make (← body.block)) property :=
  hbody.block.bind fun made hmade => gives_pure.mpr (hmake made hmade)

/-- What is made from one name. -/
theorem Part.Runs.oneName {make : Identifier → β} (hname : name.Runs)
    (hmake : ∀ made, AllRun [.identifier made] → property (make made)) :
    Gives (do return make (← name.identifier)) property :=
  hname.identifier.bind fun made hmade => gives_pure.mpr (hmake made hmade)

/-- What is made from a name and a value. -/
theorem Part.Runs.nameAndValue {make : Identifier → Expression → β} (hname : name.Runs)
    (hvalue : value.Runs)
    (hmake : ∀ first second,
      AllRun [.identifier first, .expression second] → property (make first second)) :
    Gives (do return make (← name.identifier) (← value.expression)) property :=
  hname.identifier.bind fun first hfirst =>
    hvalue.oneValue fun second hsecond => hmake first second (allRun_append.mpr ⟨hfirst, hsecond⟩)

/-- What is made from two values. -/
theorem Part.Runs.twoValues {make : Expression → Expression → β} (hvalue : value.Runs)
    (htail : tail.Runs)
    (hmake : ∀ first second,
      AllRun [.expression first, .expression second] → property (make first second)) :
    Gives (do return make (← value.expression) (← tail.expression)) property :=
  hvalue.expression.bind fun first hfirst =>
    htail.oneValue fun second hsecond => hmake first second (allRun_append.mpr ⟨hfirst, hsecond⟩)

/-- What is made from a condition, or from what a loop is over, and the block after it. -/
theorem Part.Runs.valueAndBody {make : Expression → Block → β} (hvalue : value.Runs)
    (hbody : body.Runs)
    (hmake : ∀ first second,
      AllRun [.expression first, .block second] → property (make first second)) :
    Gives (do return make (← value.expression) (← body.block)) property :=
  hvalue.expression.bind fun first hfirst =>
    hbody.oneBody fun second hsecond => hmake first second (allRun_append.mpr ⟨hfirst, hsecond⟩)

/-- What is made from the parameters and the body of a function. -/
theorem Part.Runs.parametersAndBody {make : List Identifier → Block → β}
    (hparameters : parameters.Runs) (hbody : body.Runs)
    (hmake : ∀ first second,
      AllRun (first.map .identifier ++ [.block second]) → property (make first second)) :
    Gives (do return make (← parameters.names) (← body.block)) property :=
  hparameters.names.bind fun first hfirst =>
    hbody.oneBody fun second hsecond => hmake first second (allRun_append.mpr ⟨hfirst, hsecond⟩)

/-- What is made from parts of one kind. -/
theorem Part.allRun_all {α : Type} {read : Part → Assembled α} {node : α → SyntaxNode}
    {make : List α → β}
    (hread : ∀ part : Part, part.Runs → Gives (read part) fun made => AllRun [node made])
    (hparts : ∀ part ∈ parts, part.Runs)
    (hmake : ∀ made : List α, AllRun (made.map node) → property (make made)) :
    Gives (do return make (← parts.mapM read)) property :=
  (allRun_mapM hread hparts).bind fun made hmade => gives_pure.mpr (hmake made hmade.1)

end Shapes

section Statements

variable {parts : List Part} {span : Span}

/-- An `if` begins with a branch. -/
theorem allRun_ifStatement (hmadeOf : Rule.ifStatement.MadeOf (parts.map Part.rule))
    (hruns : ∀ part ∈ parts, part.Runs) :
    Gives (assembleStatementForm .ifStatement span parts) fun form => AllRun form.nodes := by
  obtain ⟨_, -, hrules⟩ := hmadeOf
  obtain _ | ⟨-, _ | ⟨⟨-, hcondition⟩, _ | ⟨⟨-, hbody⟩, -⟩⟩⟩ := Part.listed_of_map hrules hruns
  simp only [List.forall_mem_cons] at hruns
  refine hcondition.expression.bind fun condition hcondition => ?_
  refine hbody.block.bind fun body hbody => ?_
  have hbranch : AllRun [.branch ⟨condition, body, condition.span.join body.span⟩] :=
    allRun_of_inside trivial (allRun_append.mpr ⟨hcondition, hbody⟩)
  refine (Part.allRun_addClauses hbranch hruns.2.2.2).bind
    fun (branches, otherwise) hclauses => gives_pure.mpr ?_
  exact StatementForm.allRun_nodes hclauses.2 hclauses.1

/-- A `for` has its names, what it is over and its block. -/
theorem allRun_forStatement (hmadeOf : Rule.forStatement.MadeOf (parts.map Part.rule))
    (hruns : ∀ part ∈ parts, part.Runs) :
    Gives (assembleStatementForm .forStatement span parts) fun form => AllRun form.nodes := by
  rcases hmadeOf with hrules | hrules
  · obtain _ | ⟨-, _ | ⟨⟨-, hitem⟩, _ | ⟨-, _ | ⟨⟨-, hiterable⟩, _ | ⟨⟨-, hbody⟩, ⟨⟩⟩⟩⟩⟩⟩ :=
      Part.listed_of_map hrules hruns
    refine hitem.identifier.bind fun item hitem => hiterable.valueAndBody hbody fun _ _ hall => ?_
    exact StatementForm.allRun_nodes trivial
      (allRun_append.mpr ⟨allRun_nil, allRun_append.mpr ⟨hitem, hall⟩⟩)
  · obtain _ | ⟨-, _ | ⟨⟨-, hindex⟩, _ | ⟨⟨-, hitem⟩, _ | ⟨-, _ | ⟨⟨-, hiterable⟩,
      _ | ⟨⟨-, hbody⟩, ⟨⟩⟩⟩⟩⟩⟩⟩ := Part.listed_of_map hrules hruns
    refine hindex.identifier.bind fun index hindex => hitem.identifier.bind fun item hitem => ?_
    refine hiterable.valueAndBody hbody fun _ _ hall => ?_
    exact StatementForm.allRun_nodes trivial
      (allRun_append.mpr ⟨hindex, allRun_append.mpr ⟨hitem, hall⟩⟩)

/-- A `try` has its block and its clauses. -/
theorem allRun_tryStatement (hmadeOf : Rule.tryStatement.MadeOf (parts.map Part.rule))
    (hruns : ∀ part ∈ parts, part.Runs) :
    Gives (assembleStatementForm .tryStatement span parts) fun form => AllRun form.nodes := by
  obtain ⟨_, -, _, -, hrules⟩ := hmadeOf
  obtain _ | ⟨-, _ | ⟨⟨-, hbody⟩, -⟩⟩ := Part.listed_of_map hrules hruns
  simp only [List.forall_mem_cons] at hruns
  refine hbody.block.bind fun body hbody => ?_
  refine (Part.allRun_optionalClause _ hruns.2.2).bind fun (caught, _) ⟨hcatch, hothers⟩ => ?_
  refine (Part.allRun_optionalClause _ hothers).bind
    fun (last, _) ⟨hfinally, _⟩ => gives_pure.mpr ?_
  exact StatementForm.allRun_nodes trivial
    (allRun_append.mpr ⟨hbody, allRun_append.mpr ⟨hcatch, hfinally⟩⟩)

/-- The target of an assignment was looked at. -/
theorem allRun_assignment (hmadeOf : Rule.assignment.MadeOf (parts.map Part.rule))
    (hruns : ∀ part ∈ parts, part.Runs) :
    Gives (assembleStatementForm .assignment span parts) fun form => AllRun form.nodes := by
  obtain ⟨_, -, hrules⟩ := hmadeOf
  obtain _ | ⟨⟨-, htarget⟩, _ | ⟨-, _ | ⟨⟨-, hvalue⟩, ⟨⟩⟩⟩⟩ := Part.listed_of_map hrules hruns
  refine htarget.expression.bind fun target htarget => ?_
  split
  · rename_i hassignable
    split
    · refine hvalue.oneValue fun value hvalue => ?_
      exact StatementForm.allRun_nodes hassignable (allRun_append.mpr ⟨htarget, hvalue⟩)
    · exact gives_error
  · exact gives_error

/-- What a rule means that stands for a kind of statement can be run: its target was looked at if it
is an assignment, and it begins with a branch if it is an `if`. -/
theorem allRun_assembleStatementForm {rule : Rule}
    (hkind : rule ∈ Rule.statements ∧ rule ≠ .functionDeclaration)
    (hmadeOf : rule.MadeOf (parts.map Part.rule)) (hruns : ∀ part ∈ parts, part.Runs) :
    Gives (assembleStatementForm rule span parts) fun form => AllRun form.nodes := by
  cases rule with
  | varDeclaration =>
    obtain _ | ⟨-, _ | ⟨⟨-, hname⟩, _ | ⟨⟨-, hvalue⟩, ⟨⟩⟩⟩⟩ := Part.listed_of_map hmadeOf hruns
    exact hname.nameAndValue hvalue fun _ _ hall => StatementForm.allRun_nodes trivial hall
  | structDeclaration =>
    obtain ⟨_, -, hrules⟩ := hmadeOf
    obtain _ | ⟨-, _ | ⟨⟨-, hname⟩, -⟩⟩ := Part.listed_of_map hrules hruns
    simp only [List.forall_mem_cons] at hruns
    refine hname.identifier.bind fun name hname => ?_
    refine Part.allRun_all (fun _ hpart => hpart.identifier) hruns.2.2
      fun properties hproperties => ?_
    exact allRun_of_inside trivial (allRun_append.mpr ⟨hname, hproperties⟩)
  | methodDeclaration =>
    obtain _ | ⟨⟨-, hname⟩, _ | ⟨⟨-, hfunction⟩, ⟨⟩⟩⟩ := Part.listed_of_map hmadeOf hruns
    refine hname.identifier.bind fun name hname => ?_
    refine hfunction.function.bind fun declaration hdeclaration => gives_pure.mpr ?_
    exact StatementForm.allRun_nodes trivial (allRun_append.mpr ⟨hname, hdeclaration⟩)
  | ifStatement => exact allRun_ifStatement hmadeOf hruns
  | loopStatement =>
    obtain _ | ⟨-, _ | ⟨⟨-, hbody⟩, ⟨⟩⟩⟩ := Part.listed_of_map hmadeOf hruns
    exact hbody.oneBody fun _ hall => StatementForm.allRun_nodes trivial hall
  | forStatement => exact allRun_forStatement hmadeOf hruns
  | tryStatement => exact allRun_tryStatement hmadeOf hruns
  | returnStatement =>
    rcases hmadeOf with hrules | hrules
    · obtain _ | ⟨-, ⟨⟩⟩ := Part.listed_of_map hrules hruns
      exact gives_pure.mpr allRun_nil
    · obtain _ | ⟨-, _ | ⟨⟨-, hvalue⟩, ⟨⟩⟩⟩ := Part.listed_of_map hrules hruns
      exact hvalue.oneValue fun _ hall => hall
  | breakStatement | continueStatement => exact gives_pure.mpr allRun_nil
  | importStatement =>
    rcases hmadeOf with hrules | hrules
    · obtain _ | ⟨-, _ | ⟨-, ⟨⟩⟩⟩ := Part.listed_of_map hrules hruns
      exact gives_true.bind fun _ _ => gives_pure.mpr (allRun_of_inside trivial allRun_nil)
    · obtain _ | ⟨-, _ | ⟨-, _ | ⟨-, _ | ⟨⟨-, hname⟩, ⟨⟩⟩⟩⟩⟩ := Part.listed_of_map hrules hruns
      refine gives_true.bind fun _ _ => hname.oneName fun _ hall => ?_
      exact allRun_of_inside trivial hall
  | assignment => exact allRun_assignment hmadeOf hruns
  | expressionStatement =>
    obtain _ | ⟨⟨-, hvalue⟩, ⟨⟩⟩ := Part.listed_of_map hmadeOf hruns
    exact hvalue.oneValue fun _ hall => hall
  | _ => exact absurd hkind (by decide)

end Statements

section Rules

variable {parts : List Part} {span : Span}

/-- A condition with two values can be run if these can. -/
theorem runs_expression (text : String) (hmadeOf : Rule.expression.MadeOf (parts.map Part.rule))
    (hruns : ∀ part ∈ parts, part.Runs) :
    Gives (assemble .expression span text parts) Meaning.Runs := by
  rcases hmadeOf with hrules | hrules
  · obtain _ | ⟨⟨-, hvalue⟩, ⟨⟩⟩ := Part.listed_of_map hrules hruns
    exact hvalue.oneValue fun _ hall => .of_nodes hall rfl
  · obtain _ | ⟨⟨-, hcondition⟩, _ | ⟨⟨-, htail⟩, ⟨⟩⟩⟩ := Part.listed_of_map hrules hruns
    refine hcondition.expression.bind fun condition hcondition => ?_
    refine htail.meaning.bind fun meaning hmeaning => ?_
    split
    · have hinside := allRun_append.mpr ⟨hcondition, hmeaning.nodes⟩
      exact gives_pure.mpr (.of_nodes (allRun_of_inside trivial hinside) rfl)
    · exact gives_error

/-- A struct literal names its struct by a path, and can be run if it has a field. -/
theorem runs_structLiteral (text : String)
    (hmadeOf : Rule.structLiteral.MadeOf (parts.map Part.rule))
    (hruns : ∀ part ∈ parts, part.Runs) (hlength : 2 ≤ parts.length) :
    Gives (assemble .structLiteral span text parts) Meaning.Runs := by
  obtain ⟨_, -, hrules⟩ := hmadeOf
  obtain _ | ⟨⟨-, hpath⟩, -⟩ := Part.listed_of_map hrules hruns
  simp only [List.forall_mem_cons] at hruns
  refine hpath.names.bind fun names hnames => ?_
  split
  · exact gives_error
  · refine (Part.allRun_picked .field hruns.2 fun part meaning => ?_).bind fun fields hfields => ?_
    · cases meaning <;> simp [Part.misplaced, Meaning.nodes]
    · obtain ⟨hchain, hisPath⟩ := memberChain_runs hnames
      have hsome : fields ≠ [] := by
        rintro rfl
        simp only [List.length_cons, ← hfields.2, List.length_nil] at hlength
        omega
      have hinside := allRun_append.mpr ⟨hchain, hfields.1⟩
      exact gives_pure.mpr (.of_nodes (allRun_of_inside ⟨hisPath, hsome⟩ hinside) rfl)

/-- What a rule means can be run, if its number is one and its struct literal has a field. -/
theorem runs_assemble {rule : Rule} (text : String) (hmadeOf : rule.MadeOf (parts.map Part.rule))
    (hruns : ∀ part ∈ parts, part.Runs)
    (hnumber : rule = .number → ∀ x, readNumber? text.toList = some x → IsMagnitude x)
    (hfields : rule = .structLiteral → 2 ≤ parts.length) :
    Gives (assemble rule span text parts) Meaning.Runs := by
  cases rule with
  | varDeclaration | structDeclaration | methodDeclaration | ifStatement | loopStatement
  | forStatement | tryStatement | returnStatement | breakStatement | continueStatement
  | importStatement | assignment | expressionStatement =>
    refine (allRun_assembleStatementForm (by decide) hmadeOf hruns).bind fun form hform => ?_
    exact gives_pure.mpr (.of_nodes hform rfl)
  | program =>
    refine Part.allRun_all (fun _ hpart => hpart.statement)
      (fun part hpart' => hruns part (List.mem_of_mem_filter hpart')) fun statements hall => ?_
    exact .of_nodes (allRun_of_inside trivial hall) rfl
  | singleExpression =>
    obtain _ | ⟨⟨-, hvalue⟩, _ | ⟨-, ⟨⟩⟩⟩ := Part.listed_of_map hmadeOf hruns
    exact hvalue.oneValue fun _ hall => .of_nodes hall rfl
  | block =>
    refine Part.allRun_all (fun _ hpart => hpart.statement) hruns fun statements hall => ?_
    exact .of_nodes (allRun_of_inside trivial hall) rfl
  | statement =>
    obtain ⟨_, -, hrules⟩ := hmadeOf
    obtain _ | ⟨⟨-, hpart'⟩, ⟨⟩⟩ := Part.listed_of_map hrules hruns
    refine hpart'.meaning.bind fun meaning hmeaning => ?_
    split
    · exact gives_pure.mpr (.of_nodes (allRun_of_inside trivial hmeaning.nodes) rfl)
    · exact gives_pure.mpr (.of_nodes (allRun_of_inside trivial hmeaning.nodes) rfl)
    · exact gives_error
  | functionDeclaration =>
    obtain _ | ⟨-, _ | ⟨⟨-, hname⟩, _ | ⟨⟨-, hparameters⟩, _ | ⟨⟨-, hbody⟩, ⟨⟩⟩⟩⟩⟩ :=
      Part.listed_of_map hmadeOf hruns
    refine hname.identifier.bind fun name hname => ?_
    refine hparameters.parametersAndBody hbody fun _ _ hall => ?_
    exact .of_nodes (allRun_of_inside trivial (allRun_append.mpr ⟨hname, hall⟩)) rfl
  | parameterList | structPath =>
    exact Part.allRun_all (fun _ hpart => hpart.identifier) hruns fun _ hall => .of_nodes hall rfl
  | elseifClause =>
    rcases hmadeOf with hrules | hrules
    · obtain _ | ⟨-, _ | ⟨⟨-, hcondition⟩, _ | ⟨⟨-, hbody⟩, ⟨⟩⟩⟩⟩ :=
        Part.listed_of_map hrules hruns
      exact hcondition.valueAndBody hbody fun _ _ hall =>
        .of_nodes (allRun_of_inside trivial hall) rfl
    · obtain _ | ⟨-, _ | ⟨-, _ | ⟨⟨-, hcondition⟩, _ | ⟨⟨-, hbody⟩, ⟨⟩⟩⟩⟩⟩ :=
        Part.listed_of_map hrules hruns
      exact hcondition.valueAndBody hbody fun _ _ hall =>
        .of_nodes (allRun_of_inside trivial hall) rfl
  | elseClause | catchClause | finallyClause =>
    obtain _ | ⟨-, _ | ⟨⟨-, hbody⟩, ⟨⟩⟩⟩ := Part.listed_of_map hmadeOf hruns
    exact hbody.oneBody fun _ hall => .of_nodes hall rfl
  | expression => exact runs_expression text hmadeOf hruns
  | ternaryTail =>
    obtain _ | ⟨⟨-, hthen⟩, _ | ⟨⟨-, helse⟩, ⟨⟩⟩⟩ := Part.listed_of_map hmadeOf hruns
    exact hthen.twoValues helse fun _ _ hall => .of_nodes hall rfl
  | binaryExpr =>
    refine (Part.allRun_row hruns).bind fun row hrow => ?_
    split
    · exact gives_pure.mpr (.of_nodes (hrow _ ‹_›) rfl)
    · exact gives_error
  | postfixExpr =>
    obtain ⟨_, -, _, -, hrules⟩ := hmadeOf
    obtain _ | ⟨⟨-, hfirst⟩, -⟩ := Part.listed_of_map hrules hruns
    simp only [List.forall_mem_cons] at hruns
    refine hfirst.primary.bind fun first hfirst => ?_
    refine (Part.allRun_postfixChain hfirst hruns.2).bind fun value hvalue => ?_
    exact gives_pure.mpr (.of_nodes hvalue rfl)
  | callArguments =>
    exact Part.allRun_all (fun _ hpart => hpart.expression) hruns fun _ hall => .of_nodes hall rfl
  | memberAccess =>
    obtain _ | ⟨⟨-, hname⟩, ⟨⟩⟩ := Part.listed_of_map hmadeOf hruns
    exact hname.oneName fun _ hall => .of_nodes hall rfl
  | indexAccess =>
    obtain ⟨_, hrules⟩ : ∃ kind, parts.map Part.rule = [kind] := by
      rcases hmadeOf with hrules | hrules <;> exact ⟨_, hrules⟩
    obtain _ | ⟨⟨-, hpart'⟩, ⟨⟩⟩ := Part.listed_of_map hrules hruns
    refine hpart'.meaning.bind fun meaning hmeaning => ?_
    split
    · exact gives_pure.mpr (.of_nodes hmeaning.nodes rfl)
    · exact gives_pure.mpr (.of_nodes hmeaning.nodes rfl)
    · exact gives_error
  | sliceBounds =>
    refine (Part.allRun_sliceBounds hruns).bind fun (start, stop) hbounds => ?_
    exact gives_pure.mpr (.of_nodes hbounds rfl)
  | sliceStart | sliceEnd =>
    obtain _ | ⟨⟨-, hvalue⟩, ⟨⟩⟩ := Part.listed_of_map hmadeOf hruns
    exact hvalue.oneValue fun _ hall => .of_nodes hall rfl
  | number =>
    dsimp only [assemble]
    split
    · rename_i hread
      refine gives_pure.mpr ⟨allRun_nil, fun value heq => ?_⟩
      cases heq
      exact hnumber rfl _ hread
    · exact gives_error
  | string =>
    obtain _ | ⟨-, ⟨⟩⟩ := Part.listed_of_map hmadeOf hruns
    exact gives_true.bind fun _ _ => gives_pure.mpr (.of_nodes allRun_nil rfl)
  | functionLiteral =>
    obtain _ | ⟨-, _ | ⟨⟨-, hparameters⟩, _ | ⟨⟨-, hbody⟩, ⟨⟩⟩⟩⟩ :=
      Part.listed_of_map hmadeOf hruns
    exact hparameters.parametersAndBody hbody fun _ _ hall =>
      .of_nodes (allRun_of_inside trivial hall) rfl
  | structLiteral => exact runs_structLiteral text hmadeOf hruns (hfields rfl)
  | structField =>
    obtain _ | ⟨⟨-, hname⟩, _ | ⟨⟨-, hvalue⟩, ⟨⟩⟩⟩ := Part.listed_of_map hmadeOf hruns
    exact hname.nameAndValue hvalue fun _ _ hall => .of_nodes (allRun_of_inside trivial hall) rfl
  | array =>
    exact Part.allRun_all (fun _ hpart => hpart.expression) hruns fun _ hall =>
      .of_nodes (allRun_of_inside trivial hall) rfl
  | dictionary =>
    refine (Part.allRun_picked .entry hruns fun part meaning => ?_).bind fun entries hentries => ?_
    · cases meaning <;> simp [Part.misplaced, Meaning.nodes]
    · exact gives_pure.mpr (.of_nodes (allRun_of_inside trivial hentries.1) rfl)
  | dictionaryEntry =>
    obtain ⟨_, -, hrules⟩ := hmadeOf
    obtain _ | ⟨-, _ | ⟨⟨-, hvalue⟩, ⟨⟩⟩⟩ := Part.listed_of_map hrules hruns
    refine gives_true.bind fun _ _ => hvalue.oneValue fun _ hall => ?_
    exact .of_nodes (allRun_of_inside trivial hall) rfl
  | _ => exact gives_pure.mpr (.of_nodes allRun_nil rfl)

end Rules

/-- Where nodes keep what their rules promise, everything that they mean can be run. -/
theorem Node.Throughout.runs {node : Node} (hpromises : node.Throughout Node.Promises) :
    node.part.Runs := by
  induction hpromises with
  | @intro node hhere _ ih =>
    obtain ⟨rule, start, stop, text, children⟩ := node
    refine ⟨hhere.name, runs_assemble text (by simpa using hhere.madeOf) (by simpa using ih)
      hhere.number fun heq => ?_⟩
    rw [partsOf_eq_map, List.length_map]
    exact hhere.fields heq

section Parsing

variable {source : String}

/-- A program that was parsed can be run. -/
theorem runs_parseProgram (source : String) (sourceFile : Option String) :
    Gives (parseProgram source sourceFile) fun program => (SyntaxNode.program program).Runs := by
  unfold parseProgram
  refine gives_mapError.mpr (gives_bind.mpr fun part hread => ?_)
  obtain ⟨node, rfl, hpromises⟩ := exists_promises_of_readPart hread
  refine hpromises.runs.meaning.bind fun meaning hmeaning => ?_
  split
  · -- the name of the file is no part of the tree
    obtain ⟨hprogram, -⟩ := allRun_cons.mp hmeaning.nodes
    exact gives_pure.mpr (.intro trivial hprogram.inside)
  · exact gives_error

/-- An expression that was parsed can be run. -/
theorem runs_parseExpression (source : String) :
    Gives (parseExpression source) fun value => (SyntaxNode.expression value).Runs := by
  unfold parseExpression
  refine gives_mapError.mpr (gives_bind.mpr fun part hread => ?_)
  obtain ⟨node, rfl, hpromises⟩ := exists_promises_of_readPart hread
  exact hpromises.runs.expression.mono fun value hvalue => allRun_singleton.mp hvalue

end Parsing

end Kestrel
