import Kestrel.Proofs.Syntax.Children
import Kestrel.Proofs.Syntax.Part

/-!
# Trees assembled in order

A rule that covers a span, with its parts in order inside, means something that is laid out in the
span. That the clauses of an `if` and the bounds of a slice come in the order of the tree is what
the grammar says of their rules.
-/

namespace Kestrel

variable {source : String} {low middle high : Nat}

/-- Members taken one of the other cover what lies from the object to the last of them. -/
theorem Laid.members {object : Expression} {members : List Identifier}
    (hlaid : Laid source low (.expression object :: members.map .identifier) high) :
    Laid source low [.expression (members.foldl (fun object property =>
      ⟨.member object property, object.span.join property.span⟩) object)] high := by
  induction members generalizing object with
  | nil => exact hlaid
  | cons property members ih =>
    obtain ⟨hobject, hproperties⟩ := hlaid.cons_inv
    obtain ⟨hproperty, hothers⟩ := hproperties.cons_inv
    have hmember : Laid source low [.expression ⟨.member object property,
        object.span.join property.span⟩] property.span.stop :=
      (hobject.append hproperty).around rfl hproperty.fits rfl rfl
    exact ih (hmember.append hothers)

/-- A chain of names, each a member of what comes before it, covers the chain. -/
theorem Laid.memberChain {root : Identifier} {members : List Identifier}
    (hlaid : Laid source low ((root :: members).map .identifier) high) :
    Laid source low [.expression (memberChain root members)] high := by
  obtain ⟨hroot, hmembers⟩ := hlaid.cons_inv
  exact (hroot.ofIdentifier.append hmembers).members

/-- What a rule and its parts owe to the text that the rule covers. -/
structure Rule.Covers (source : String) (rule : Rule) (span : Span) (parts : List Part) : Prop where
  fits : span.Fits source
  nonempty : rule.advances → span.start < span.stop
  inOrder : Part.InOrder source span.start parts span.stop
  yields : rule.definition.body.Yields rule.definition.mode (parts.map Part.rule)

namespace Rule.Covers

variable {rule : Rule} {span : Span} {parts : List Part}

/-- A node that covers what a rule covers. -/
theorem node {node : SyntaxNode} (hcovers : rule.Covers source span parts)
    (hadvances : rule.advances) (hsame : node.span = span)
    (hlaid : Laid source span.start node.children span.stop) :
    Laid source span.start [node] span.stop := by
  subst hsame
  exact .single hcovers.fits (fun _ => hcovers.nonempty hadvances) hlaid

end Rule.Covers

/-- A row of clauses in which only the last one may be another than an `elseif`. -/
def ClausesEndWell (clauses : List Part) : Prop :=
  ∀ rule ∈ (clauses.map Part.rule).dropLast, rule = .elseifClause

namespace ClausesEndWell

variable {clause next : Part} {clauses : List Part}

/-- The clauses of an `if` end well: this is how the grammar writes them. -/
theorem of_yields {keyword condition body : Part}
    (hyields : Rule.ifStatement.definition.body.Yields .spaced
      ((keyword :: condition :: body :: clauses).map Part.rule)) : ClausesEndWell clauses := by
  obtain ⟨_, _, rfl, ⟨_, _, rfl, ⟨_, _, rfl, ⟨front, tail, hfront, htail, rfl⟩, rfl⟩, rfl⟩,
    hrules⟩ := hyields
  have hclauses : clauses.map Part.rule = front ++ tail := by
    simpa using (List.cons.inj (List.cons.inj (List.cons.inj hrules).2).2).2
  intro rule hmember
  rw [hclauses] at hmember
  rcases htail with rfl | rfl
  · exact hfront.eq_of_mem rule (by simpa using List.dropLast_subset _ hmember)
  · exact hfront.eq_of_mem rule (by simpa using hmember)

/-- A row of clauses without its first one ends as well. -/
theorem tail (hends : ClausesEndWell (clause :: clauses)) : ClausesEndWell clauses := by
  cases clauses with
  | nil => exact fun _ hmember => nomatch hmember
  | cons => exact fun rule hmember => hends rule (List.mem_cons_of_mem _ hmember)

/-- A clause that others follow is an `elseif`. -/
theorem rule_head (hends : ClausesEndWell (clause :: next :: clauses)) :
    clause.rule = .elseifClause :=
  hends _ (List.mem_cons_self ..)

end ClausesEndWell

open Kestrel.Part (InOrder)

/-- The clauses of an `if` add branches and, at the end, a block to the branches before them. -/
theorem laid_addClauses {clauses : List Part} {branches : List Branch}
    (hlaid : Laid source low (branches.map .branch) middle)
    (hinOrder : InOrder source middle clauses high) (hends : ClausesEndWell clauses) :
    Gives (clauses.foldlM addClause (branches, none)) fun (branches, otherwise) =>
      Laid source low (branches.map .branch ++ (otherwise.map .block).toList) high := by
  induction clauses generalizing branches middle with
  | nil => exact gives_pure.mpr (by simpa using hlaid.le_high hinOrder)
  | cons clause clauses ih =>
    obtain ⟨hle, hsound, hothers⟩ := hinOrder
    rw [List.foldlM_cons]
    refine gives_bind.mpr (hsound.meaning.bind fun meaning hplaced => ?_)
    split
    · rename_i branch
      have hbranch : Laid source middle [.branch branch] clause.span.stop :=
        hplaced.laid.low_le hle
      have hbranches : Laid source low ((branches ++ [branch]).map .branch) clause.span.stop := by
        simpa using hlaid.append hbranch
      exact gives_ok.mpr (ih hbranches hothers hends.tail)
    · rename_i block
      -- a bare block is no `elseif`, so nothing comes after it
      cases clauses with
      | nil =>
        have hblock := hplaced.laid.low_le hle
        exact gives_ok.mpr (gives_pure.mpr ((hlaid.append hblock).le_high hothers))
      | cons => exact absurd hends.rule_head hplaced.suits
    · exact gives_error

/-- A clause that may be missing gives its block, if it is there, before what follows it. -/
theorem laid_optionalClause {clauses : List Part} (rule : Rule)
    (hinOrder : InOrder source low clauses high) :
    Gives (optionalClause rule clauses) fun (block, others) =>
      ∃ middle, Laid source low (block.map .block).toList middle ∧
        InOrder source middle others high := by
  have habsent {clauses : List Part} (hinOrder : InOrder source low clauses high) :
      ∃ middle, Laid source low ((none : Option Block).map .block).toList middle ∧
        InOrder source middle clauses high := ⟨low, .nil (Nat.le_refl _), hinOrder⟩
  unfold optionalClause
  split
  · exact gives_pure.mpr (habsent hinOrder)
  · rename_i clause others
    split
    · refine (hinOrder.2.1.block hinOrder.1).bind fun block hblock => ?_
      exact gives_pure.mpr ⟨_, hblock, hinOrder.2.2⟩
    · exact gives_pure.mpr (habsent hinOrder)

/-- The bounds of a slice come in the order of the tree. -/
theorem laid_sliceBounds {bounds : List Part} (hinOrder : InOrder source low bounds high)
    (hyields : Rule.sliceBounds.definition.body.Yields .spaced (bounds.map Part.rule)) :
    Gives (sliceBounds bounds) fun (start, stop) =>
      Laid source low ((start.map .expression).toList ++ (stop.map .expression).toList) high := by
  obtain ⟨front, back, hfront, ⟨_, tail, rfl, htail, rfl⟩, hrules⟩ := hyields
  rcases hfront with rfl | rfl <;> rcases htail with rfl | rfl
  · obtain rfl := List.map_eq_nil_iff.mp hrules
    exact gives_pure.mpr (.nil hinOrder)
  · obtain ⟨stop, rfl, hstop⟩ := List.map_eq_singleton_iff.mp hrules
    obtain ⟨hle, hsound, hhigh⟩ := hinOrder
    simp only [sliceBounds, List.foldlM_cons, List.foldlM_nil, hstop, gives_bind, gives_pure]
    exact (hsound.expression hle).mono fun _ hstop => hstop.le_high hhigh
  · obtain ⟨start, rfl, hstart⟩ := List.map_eq_singleton_iff.mp hrules
    obtain ⟨hle, hsound, hhigh⟩ := hinOrder
    simp only [sliceBounds, List.foldlM_cons, List.foldlM_nil, hstart, gives_bind, gives_pure]
    exact (hsound.expression hle).mono fun _ hstart => hstart.le_high hhigh
  · obtain ⟨start, _, rfl, hstart, hrest⟩ := List.map_eq_cons_iff.mp hrules
    obtain ⟨stop, rfl, hstop⟩ := List.map_eq_singleton_iff.mp hrest
    obtain ⟨hle, hsound, hle', hsound', hhigh⟩ := hinOrder
    simp only [sliceBounds, List.foldlM_cons, List.foldlM_nil, hstart, hstop, gives_bind,
      gives_pure]
    refine (hsound.expression hle).mono fun _ hstart => ?_
    exact (hsound'.expression hle').mono fun _ hstop => hstart.append (hstop.le_high hhigh)

namespace Rule.Covers

variable {rule : Rule} {span : Span} {parts : List Part}

/-- The parts of a rule are taken apart by the rules that they are of. -/
theorem listed (hcovers : rule.Covers source span parts) {rules : List Rule}
    (hrules : parts.map Part.rule = rules) : Part.Listed (Part.Sound source) rules parts :=
  Part.listed_of_map hrules hcovers.inOrder.sound

/-- The parts of a rule are those that its tree is made from. -/
theorem madeOf (hcovers : rule.Covers source span parts) :
    rule.MadeOf (parts.map Part.rule) :=
  Rule.madeOf_of_yields hcovers.yields

section Statements

/-- An `if` covers its condition, its block and its further clauses. -/
theorem ifStatement (hcovers : Rule.ifStatement.Covers source span parts) :
    Gives (assembleStatementForm .ifStatement span parts) fun form =>
      Laid source span.start form.nodes span.stop := by
  obtain ⟨_, -, hrules⟩ := hcovers.madeOf
  obtain _ | ⟨-, _ | ⟨-, _ | ⟨-, -⟩⟩⟩ := hcovers.listed hrules
  obtain ⟨hle, hcondition, hle', hbody, hclauses⟩ := hcovers.inOrder.skip
  refine (hcondition.expression hle).bind fun condition hcondition => ?_
  refine (hbody.block hle').bind fun body hbody => ?_
  have hbranch : Laid source span.start
      [.branch ⟨condition, body, condition.span.join body.span⟩] _ :=
    (hcondition.append hbody).pair rfl rfl rfl
  refine (laid_addClauses hbranch hclauses (.of_yields hcovers.yields)).bind ?_
  exact fun _ hlaid => gives_pure.mpr (hcovers.node rfl rfl hlaid)

/-- A `for` covers its names, what it is over and its block. -/
theorem forStatement (hcovers : Rule.forStatement.Covers source span parts) :
    Gives (assembleStatementForm .forStatement span parts) fun form =>
      Laid source span.start form.nodes span.stop := by
  rcases hcovers.madeOf with hrules | hrules
  · obtain _ | ⟨-, _ | ⟨-, _ | ⟨-, _ | ⟨-, _ | ⟨-, ⟨⟩⟩⟩⟩⟩⟩ := hcovers.listed hrules
    obtain ⟨hle, hitem, hrest⟩ := hcovers.inOrder.skip
    refine (hitem.identifier hle).bind fun item hitem => ?_
    exact hrest.skip.valueAndBody fun _ _ hlaid => hcovers.node rfl rfl (hitem.append hlaid)
  · obtain _ | ⟨-, _ | ⟨-, _ | ⟨-, _ | ⟨-, _ | ⟨-, _ | ⟨-, ⟨⟩⟩⟩⟩⟩⟩⟩ := hcovers.listed hrules
    obtain ⟨hle, hindex, hle', hitem, hrest⟩ := hcovers.inOrder.skip
    refine (hindex.identifier hle).bind fun index hindex => ?_
    refine (hitem.identifier hle').bind fun item hitem => ?_
    exact hrest.skip.valueAndBody fun _ _ hlaid =>
      hcovers.node rfl rfl (hindex.append (hitem.append hlaid))

/-- A `try` covers its block and its clauses. -/
theorem tryStatement (hcovers : Rule.tryStatement.Covers source span parts) :
    Gives (assembleStatementForm .tryStatement span parts) fun form =>
      Laid source span.start form.nodes span.stop := by
  obtain ⟨_, -, _, -, hrules⟩ := hcovers.madeOf
  obtain _ | ⟨-, _ | ⟨-, -⟩⟩ := hcovers.listed hrules
  obtain ⟨hle, hbody, hclauses⟩ := hcovers.inOrder.skip
  refine (hbody.block hle).bind fun body hbody => ?_
  refine (laid_optionalClause _ hclauses).bind fun (caught, _) ⟨_, hcatch, hclauses⟩ => ?_
  refine (laid_optionalClause _ hclauses).bind fun (last, _) ⟨_, hfinally, hrest⟩ => ?_
  have hlaid : Laid source span.start
      (.block body :: ((caught.map .block).toList ++ (last.map .block).toList)) span.stop :=
    (hbody.append (hcatch.append hfinally)).le_high hrest.low_le_high
  exact gives_pure.mpr (hcovers.node rfl rfl hlaid)

/-- An assignment covers its target and its value. -/
theorem assignment (hcovers : Rule.assignment.Covers source span parts) :
    Gives (assembleStatementForm .assignment span parts) fun form =>
      Laid source span.start form.nodes span.stop := by
  obtain ⟨_, -, hrules⟩ := hcovers.madeOf
  obtain _ | ⟨-, _ | ⟨-, _ | ⟨-, ⟨⟩⟩⟩⟩ := hcovers.listed hrules
  obtain ⟨hle, htarget, hrest⟩ := hcovers.inOrder
  refine (htarget.expression hle).bind fun target htarget => ?_
  split
  · split
    · exact hrest.skip.oneValue fun _ hlaid => hcovers.node rfl rfl (htarget.append hlaid)
    · exact gives_error
  · exact gives_error

/-- What a rule means that stands for a kind of statement is laid out in what it covers. -/
theorem assembleStatementForm (hkind : rule ∈ Rule.statements ∧ rule ≠ .functionDeclaration)
    (hcovers : rule.Covers source span parts) :
    Gives (assembleStatementForm rule span parts) fun form =>
      Laid source span.start form.nodes span.stop := by
  have hmadeOf := hcovers.madeOf
  have hinOrder := hcovers.inOrder
  cases rule with
  | varDeclaration =>
    obtain _ | ⟨-, _ | ⟨-, _ | ⟨-, ⟨⟩⟩⟩⟩ := hcovers.listed hmadeOf
    exact hinOrder.skip.nameAndValue fun _ _ hlaid => hcovers.node rfl rfl hlaid
  | structDeclaration =>
    obtain ⟨_, -, hrules⟩ := hmadeOf
    obtain _ | ⟨-, _ | ⟨-, -⟩⟩ := hcovers.listed hrules
    obtain ⟨hle, hname, hproperties⟩ := hinOrder.skip
    refine (hname.identifier hle).bind fun name hname => ?_
    exact InOrder.all Part.Sound.identifier hproperties fun _ hlaid =>
      hcovers.node rfl rfl (hname.append hlaid)
  | methodDeclaration =>
    obtain _ | ⟨-, _ | ⟨-, ⟨⟩⟩⟩ := hcovers.listed hmadeOf
    obtain ⟨hle, hname, hle', hfunction, hhigh⟩ := hinOrder
    refine (hname.identifier hle).bind fun name hname => ?_
    refine (hfunction.function hle').bind fun declaration hdeclaration => ?_
    have hlaid : Laid source span.start [.identifier name, .function declaration] span.stop :=
      (hname.append hdeclaration).le_high hhigh
    exact gives_pure.mpr (hcovers.node rfl rfl hlaid)
  | ifStatement => exact hcovers.ifStatement
  | loopStatement =>
    obtain _ | ⟨-, _ | ⟨-, ⟨⟩⟩⟩ := hcovers.listed hmadeOf
    exact hinOrder.skip.oneBody fun _ hlaid => hcovers.node rfl rfl hlaid
  | forStatement => exact hcovers.forStatement
  | tryStatement => exact hcovers.tryStatement
  | returnStatement =>
    rcases hmadeOf with hrules | hrules
    · obtain _ | ⟨-, ⟨⟩⟩ := hcovers.listed hrules
      exact gives_pure.mpr (.nil hinOrder.low_le_high)
    · obtain _ | ⟨-, _ | ⟨-, ⟨⟩⟩⟩ := hcovers.listed hrules
      exact hinOrder.skip.oneValue fun _ hlaid => hlaid
  | breakStatement | continueStatement => exact gives_pure.mpr (.nil hinOrder.low_le_high)
  | importStatement =>
    rcases hmadeOf with hrules | hrules
    · obtain _ | ⟨-, _ | ⟨-, ⟨⟩⟩⟩ := hcovers.listed hrules
      refine gives_true.bind fun _ _ => ?_
      exact gives_pure.mpr (hcovers.node rfl rfl (.nil hcovers.fits.start_le_stop))
    · obtain _ | ⟨-, _ | ⟨-, _ | ⟨-, _ | ⟨-, ⟨⟩⟩⟩⟩⟩ := hcovers.listed hrules
      refine gives_true.bind fun _ _ => ?_
      exact hinOrder.skip.skip.skip.oneName fun _ hlaid => hcovers.node rfl rfl hlaid
  | assignment => exact hcovers.assignment
  | expressionStatement =>
    obtain _ | ⟨-, ⟨⟩⟩ := hcovers.listed hmadeOf
    exact hinOrder.oneValue fun _ hlaid => hlaid
  | _ => exact absurd hkind (by decide)

end Statements

section Rules

/-- A condition with two values covers them all. -/
theorem expression (hcovers : Rule.expression.Covers source span parts) (text : String) :
    Gives (assemble .expression span text parts) (Meaning.Placed source .expression span) := by
  rcases hcovers.madeOf with hrules | hrules
  · obtain _ | ⟨-, ⟨⟩⟩ := hcovers.listed hrules
    exact hcovers.inOrder.oneValue fun _ hlaid => ⟨trivial, hlaid⟩
  · obtain _ | ⟨-, _ | ⟨-, ⟨⟩⟩⟩ := hcovers.listed hrules
    obtain ⟨hle, hcondition, hle', htail, hhigh⟩ := hcovers.inOrder
    refine (hcondition.expression hle).bind fun condition hcondition => ?_
    refine htail.meaning.bind fun meaning hplaced => ?_
    have hlaid : Laid source span.start (.expression condition :: meaning.nodes) span.stop :=
      (hcondition.append (hplaced.laid.low_le hle')).le_high hhigh
    split
    · exact gives_pure.mpr ⟨trivial, hcovers.node rfl rfl hlaid⟩
    · exact gives_error

/-- A struct literal covers its path and its fields. -/
theorem structLiteral (hcovers : Rule.structLiteral.Covers source span parts) (text : String) :
    Gives (assemble .structLiteral span text parts)
      (Meaning.Placed source .structLiteral span) := by
  obtain ⟨_, -, hrules⟩ := hcovers.madeOf
  obtain _ | ⟨-, -⟩ := hcovers.listed hrules
  obtain ⟨hle, hpath, hfields⟩ := hcovers.inOrder
  refine (hpath.names hle).bind fun _ hpath => ?_
  split
  · exact gives_error
  · refine (hfields.picked .field fun _ meaning => ?_).bind fun _ hfields => ?_
    · cases meaning <;> simp [Part.misplaced, Meaning.nodes]
    · exact gives_pure.mpr ⟨trivial, hcovers.node rfl rfl (hpath.memberChain.append hfields)⟩

/-- What a rule means is laid out in what it covers. -/
theorem assemble (hcovers : rule.Covers source span parts) (text : String) :
    Gives (assemble rule span text parts) (Meaning.Placed source rule span) := by
  have hmadeOf := hcovers.madeOf
  have hinOrder := hcovers.inOrder
  cases rule with
  | varDeclaration | structDeclaration | methodDeclaration | ifStatement | loopStatement
  | forStatement | tryStatement | returnStatement | breakStatement | continueStatement
  | importStatement | assignment | expressionStatement =>
    refine (hcovers.assembleStatementForm (by decide)).bind fun _ hform => ?_
    exact gives_pure.mpr ⟨trivial, hform⟩
  | program =>
    refine (hinOrder.filter _).all Part.Sound.statement fun _ hlaid => ⟨trivial, ?_⟩
    exact .cons (Nat.le_refl _) hcovers.fits nofun hlaid (.nil (Nat.le_refl _))
  | singleExpression =>
    obtain _ | ⟨-, _ | ⟨-, ⟨⟩⟩⟩ := hcovers.listed hmadeOf
    obtain ⟨hle, hvalue, hrest⟩ := hinOrder
    refine (hvalue.expression hle).bind fun _ hlaid => ?_
    exact gives_pure.mpr ⟨trivial, hlaid.le_high hrest.low_le_high⟩
  | block =>
    exact hinOrder.all Part.Sound.statement fun _ hlaid => ⟨nofun, hcovers.node rfl rfl hlaid⟩
  | statement =>
    obtain ⟨_, -, hrules⟩ := hmadeOf
    obtain _ | ⟨-, ⟨⟩⟩ := hcovers.listed hrules
    obtain ⟨hle, hpart, hhigh⟩ := hinOrder
    refine hpart.meaning.bind fun meaning hplaced => ?_
    have hlaid : Laid source span.start meaning.nodes span.stop :=
      (hplaced.laid.low_le hle).le_high hhigh
    split
    · exact gives_pure.mpr ⟨trivial, hcovers.node rfl rfl hlaid⟩
    · exact gives_pure.mpr ⟨trivial, hcovers.node rfl rfl hlaid⟩
    · exact gives_error
  | functionDeclaration =>
    obtain _ | ⟨-, _ | ⟨-, _ | ⟨-, _ | ⟨-, ⟨⟩⟩⟩⟩⟩ := hcovers.listed hmadeOf
    obtain ⟨hle, hname, hrest⟩ := hinOrder.skip
    refine (hname.identifier hle).bind fun name hname => ?_
    exact InOrder.parametersAndBody hrest fun _ _ hlaid =>
      ⟨trivial, hcovers.node rfl rfl (hname.append hlaid)⟩
  | parameterList | structPath =>
    exact hinOrder.all Part.Sound.identifier fun _ hlaid => ⟨trivial, hlaid⟩
  | elseifClause =>
    rcases hmadeOf with hrules | hrules
    · obtain _ | ⟨-, _ | ⟨-, _ | ⟨-, ⟨⟩⟩⟩⟩ := hcovers.listed hrules
      exact hinOrder.skip.valueAndBody fun _ _ hlaid => ⟨trivial, hcovers.node rfl rfl hlaid⟩
    · obtain _ | ⟨-, _ | ⟨-, _ | ⟨-, _ | ⟨-, ⟨⟩⟩⟩⟩⟩ := hcovers.listed hrules
      exact hinOrder.skip.skip.valueAndBody fun _ _ hlaid =>
        ⟨trivial, hcovers.node rfl rfl hlaid⟩
  | elseClause | catchClause | finallyClause =>
    obtain _ | ⟨-, _ | ⟨-, ⟨⟩⟩⟩ := hcovers.listed hmadeOf
    exact hinOrder.skip.oneBody fun _ hlaid => ⟨nofun, hlaid⟩
  | expression => exact hcovers.expression text
  | ternaryTail =>
    obtain _ | ⟨-, _ | ⟨-, ⟨⟩⟩⟩ := hcovers.listed hmadeOf
    exact hinOrder.twoValues fun _ _ hlaid => ⟨trivial, hlaid⟩
  | binaryExpr =>
    refine hinOrder.row.bind fun _ hrow => ?_
    split
    · rename_i hvalue
      exact gives_pure.mpr ⟨trivial, .ofRow? hvalue hrow⟩
    · exact gives_error
  | postfixExpr =>
    obtain ⟨_, -, _, -, hrules⟩ := hmadeOf
    obtain _ | ⟨-, -⟩ := hcovers.listed hrules
    obtain ⟨hle, hfirst, hchain⟩ := hinOrder
    refine (hfirst.primary hle).bind fun _ hfirst => ?_
    refine (hchain.postfixChain hfirst).bind fun _ hlaid => ?_
    exact gives_pure.mpr ⟨trivial, hlaid⟩
  | callArguments =>
    exact hinOrder.all Part.Sound.expression fun _ hlaid => ⟨trivial, hlaid⟩
  | memberAccess =>
    obtain _ | ⟨-, ⟨⟩⟩ := hcovers.listed hmadeOf
    exact hinOrder.oneName fun _ hlaid => ⟨trivial, hlaid⟩
  | indexAccess =>
    obtain ⟨_, hrules⟩ : ∃ kind, parts.map Part.rule = [kind] := by
      rcases hmadeOf with hrules | hrules <;> exact ⟨_, hrules⟩
    obtain _ | ⟨-, ⟨⟩⟩ := hcovers.listed hrules
    obtain ⟨hle, hpart, hhigh⟩ := hinOrder
    refine hpart.meaning.bind fun meaning hplaced => ?_
    have hlaid : Laid source span.start meaning.nodes span.stop :=
      (hplaced.laid.low_le hle).le_high hhigh
    split
    · exact gives_pure.mpr ⟨trivial, hlaid⟩
    · exact gives_pure.mpr ⟨trivial, hlaid⟩
    · exact gives_error
  | sliceBounds =>
    refine (laid_sliceBounds hinOrder hcovers.yields).bind fun (_, _) hlaid => ?_
    exact gives_pure.mpr ⟨trivial, hlaid⟩
  | sliceStart | sliceEnd =>
    obtain _ | ⟨-, ⟨⟩⟩ := hcovers.listed hmadeOf
    exact hinOrder.oneValue fun _ hlaid => ⟨trivial, hlaid⟩
  | number =>
    dsimp only [Kestrel.assemble]
    split
    · exact gives_pure.mpr ⟨rfl, .nil hinOrder.low_le_high⟩
    · exact gives_error
  | string =>
    obtain _ | ⟨-, ⟨⟩⟩ := hcovers.listed hmadeOf
    exact gives_true.bind fun _ _ => gives_pure.mpr ⟨rfl, .nil hinOrder.low_le_high⟩
  | functionLiteral =>
    obtain _ | ⟨-, _ | ⟨-, _ | ⟨-, ⟨⟩⟩⟩⟩ := hcovers.listed hmadeOf
    exact hinOrder.skip.parametersAndBody fun _ _ hlaid => ⟨trivial, hcovers.node rfl rfl hlaid⟩
  | structLiteral => exact hcovers.structLiteral text
  | structField =>
    obtain _ | ⟨-, _ | ⟨-, ⟨⟩⟩⟩ := hcovers.listed hmadeOf
    exact hinOrder.nameAndValue fun _ _ hlaid => ⟨trivial, hcovers.node rfl rfl hlaid⟩
  | array =>
    exact hinOrder.all Part.Sound.expression fun _ hlaid => ⟨trivial, hcovers.node rfl rfl hlaid⟩
  | dictionary =>
    refine (hinOrder.picked .entry fun _ meaning => ?_).bind fun _ hlaid => ?_
    · cases meaning <;> simp [Part.misplaced, Meaning.nodes]
    · exact gives_pure.mpr ⟨trivial, hcovers.node rfl rfl hlaid⟩
  | dictionaryEntry =>
    obtain ⟨_, -, hrules⟩ := hmadeOf
    obtain _ | ⟨-, _ | ⟨-, ⟨⟩⟩⟩ := hcovers.listed hrules
    refine gives_true.bind fun _ _ => ?_
    exact hinOrder.skip.oneValue fun _ hlaid => ⟨trivial, hcovers.node rfl rfl hlaid⟩
  | _ => exact gives_pure.mpr ⟨trivial, .nil hinOrder.low_le_high⟩

end Rules

end Rule.Covers

end Kestrel
