import Kestrel.Proofs.Grammar.Spelling
import Kestrel.Proofs.Syntax.Settled
import Kestrel.Proofs.Syntax.Spans

/-!
# Why a text is refused

A tree that was read from a text has, at every node, the parts that its syntax tree is made from,
and its number literals denote numbers. So a text is refused only because it does not follow the
grammar, or because of what it says; and if it is not refused, nothing in it is at fault.
-/

namespace Kestrel

/-- The faults that a rule finds itself, all of its parts so far having a meaning: an escape that
does not exist in a literal, and a target that cannot be assigned to. -/
inductive Rule.OwnFault : Rule → List Part → SyntaxFault → Prop
  | escape {content : Part} {fault : SyntaxFault}
      (hfails : resolveEscapes content.span.start [] content.text.toList = .error fault) :
      OwnFault .string [content] fault
  | target {target operator value : Part} {made : Expression}
      (hmeans : target.expression = .ok made) (hrefused : made.form.isAssignable = false) :
      OwnFault .assignment [target, operator, value] (.notAssignable made.span)

/-- A fault that a rule finds by itself lies in the source. -/
theorem Rule.OwnFault.ofSource {rule : Rule} {parts : List Part} {fault : SyntaxFault}
    (hown : rule.OwnFault parts fault) : fault.OfSource := by
  cases hown with
  | @escape content _ hfails =>
    have hsettles := settles_resolveEscapes content.span.start [] content.text.toList
    rwa [hfails] at hsettles
  | target => trivial

section Statements

variable {span : Span} {parts : List Part}

/-- An `if` is made from its condition, its block and its further clauses in turn. -/
theorem inTurn_ifStatement (hmadeOf : Rule.ifStatement.MadeOf (parts.map Part.rule))
    (hapt : ∀ part ∈ parts, part.Apt) :
    InTurn (Rule.OwnFault .ifStatement parts) parts
      (assembleStatementForm .ifStatement span parts) fun _ => True := by
  obtain ⟨names, hnames, hrules⟩ := hmadeOf
  obtain _ | ⟨hmark, _ | ⟨hcondition, _ | ⟨hbody, hclauses⟩⟩⟩ := Part.listed_of_map hrules hapt
  refine .mark hmark rfl ?_
  refine (inTurn_expression hcondition fun _ => id).cons fun _ _ _ => ?_
  refine (inTurn_block hbody fun _ => id).cons fun _ _ _ => ?_
  refine (inTurn_foldlM (fun made part hpart => ?_) _).finish fun _ _ _ =>
    inTurn_nil_pure.mpr trivial
  obtain ⟨rule, hrule, hclause⟩ := Part.Listed.exists_rule hclauses hpart
  exact inTurn_addClause hclause (hnames rule hrule) made

/-- A `try` is made from its block and then from its clauses, as far as they are there. -/
theorem inTurn_tryStatement (hmadeOf : Rule.tryStatement.MadeOf (parts.map Part.rule))
    (hapt : ∀ part ∈ parts, part.Apt) :
    InTurn (Rule.OwnFault .tryStatement parts) parts
      (assembleStatementForm .tryStatement span parts) fun _ => True := by
  obtain ⟨_, hcaught, _, hlast, hrules⟩ := hmadeOf
  simp only [List.map_eq_cons_iff, List.map_eq_append_iff] at hrules
  obtain ⟨mark, _, rfl, hmark, body, _, rfl, hbody, caught, last, rfl, rfl, rfl⟩ := hrules
  simp only [List.forall_mem_cons, List.forall_mem_append] at hapt
  obtain ⟨haptMark, haptBody, haptCaught, haptLast⟩ := hapt
  have hnone : .catchClause ∉ last.map Part.rule := by
    simp only [List.mem_cons, List.not_mem_nil, or_false] at hlast
    rcases hlast with hlast | hlast <;> rw [hlast] <;> decide
  refine .mark ⟨hmark, haptMark⟩ rfl ?_
  refine (inTurn_block ⟨hbody, haptBody⟩ fun _ => id).cons fun _ _ _ => ?_
  refine (inTurn_optionalClause (fun _ => id) haptCaught hcaught hnone).append
    fun made _ hmade => ?_
  have hclause := @inTurn_optionalClause (Rule.OwnFault .tryStatement
    (mark :: body :: (caught ++ last))) last [] .finallyClause (fun _ => id) haptLast hlast
    List.not_mem_nil
  rw [List.append_nil, ← hmade] at hclause
  exact hmade ▸ hclause.finish fun _ _ _ => inTurn_nil_pure.mpr trivial

/-- An assignment is made from its target, which has to be one, and its value in turn. -/
theorem inTurn_assignment (hmadeOf : Rule.assignment.MadeOf (parts.map Part.rule))
    (hapt : ∀ part ∈ parts, part.Apt) :
    InTurn (Rule.OwnFault .assignment parts) parts
      (assembleStatementForm .assignment span parts) fun _ => True := by
  obtain ⟨rule, hsymbol, hrules⟩ := hmadeOf
  obtain _ | ⟨htarget, _ | ⟨hoperator, _ | ⟨hvalue, ⟨⟩⟩⟩⟩ := Part.listed_of_map hrules hapt
  have hmark : rule.isMark := by
    cases rule with
    | opAssign | opAssignAdd | opAssignSubtract | opAssignMultiply | opAssignDivide => rfl
    | _ => exact absurd hsymbol (by decide)
  obtain ⟨symbol, hsymbol⟩ := Option.isSome_iff_exists.mp hsymbol
  refine (inTurn_expression htarget fun _ => id).cons fun made hmade _ => ?_
  split
  · rw [hoperator.1, hsymbol]
    exact .mark hoperator hmark (inTurn_value hvalue (fun _ => id) fun _ => trivial)
  · exact .inl (.target hmade (Bool.eq_false_iff.mpr ‹_›))

/-- What a rule that stands for a kind of statement means is made from its parts in turn. -/
theorem inTurn_assembleStatementForm {rule : Rule}
    (hkind : rule ∈ Rule.statements ∧ rule ≠ .functionDeclaration)
    (hmadeOf : rule.MadeOf (parts.map Part.rule)) (hapt : ∀ part ∈ parts, part.Apt) :
    InTurn (rule.OwnFault parts) parts (assembleStatementForm rule span parts) fun _ => True := by
  cases rule with
  | varDeclaration =>
    obtain _ | ⟨hmark, _ | ⟨hname, _ | ⟨hvalue, ⟨⟩⟩⟩⟩ := Part.listed_of_map hmadeOf hapt
    exact .mark hmark rfl (inTurn_nameAndValue hname hvalue fun _ _ => trivial)
  | structDeclaration =>
    obtain ⟨names, hnames, hrules⟩ := hmadeOf
    obtain _ | ⟨hmark, _ | ⟨hname, hproperties⟩⟩ := Part.listed_of_map hrules hapt
    refine .mark hmark rfl ((inTurn_identifier hname).cons fun _ _ _ => ?_)
    exact inTurn_all (fun _ => inTurn_identifier) (Part.Listed.all_of hproperties hnames)
      fun _ _ => trivial
  | methodDeclaration =>
    obtain _ | ⟨hname, _ | ⟨hfunction, ⟨⟩⟩⟩ := Part.listed_of_map hmadeOf hapt
    refine (inTurn_identifier hname).cons fun _ _ _ => ?_
    exact (inTurn_function hfunction).cons fun _ _ _ => inTurn_nil_pure.mpr trivial
  | ifStatement => exact inTurn_ifStatement hmadeOf hapt
  | loopStatement =>
    obtain _ | ⟨hmark, _ | ⟨hbody, ⟨⟩⟩⟩ := Part.listed_of_map hmadeOf hapt
    exact .mark hmark rfl (inTurn_body hbody fun _ => trivial)
  | forStatement =>
    rcases hmadeOf with hrules | hrules
    · obtain _ | ⟨hmark, _ | ⟨hitem, _ | ⟨hin, _ | ⟨hiterable, _ | ⟨hbody, ⟨⟩⟩⟩⟩⟩⟩ :=
        Part.listed_of_map hrules hapt
      refine .mark hmark rfl ((inTurn_identifier hitem).cons fun _ _ _ => .mark hin rfl ?_)
      exact inTurn_valueAndBody hiterable hbody fun _ _ => trivial
    · obtain _ | ⟨hmark, _ | ⟨hindex, _ | ⟨hitem, _ | ⟨hin, _ | ⟨hiterable, _ | ⟨hbody, ⟨⟩⟩⟩⟩⟩⟩⟩ :=
        Part.listed_of_map hrules hapt
      refine .mark hmark rfl ((inTurn_identifier hindex).cons fun _ _ _ => ?_)
      refine (inTurn_identifier hitem).cons fun _ _ _ => .mark hin rfl ?_
      exact inTurn_valueAndBody hiterable hbody fun _ _ => trivial
  | tryStatement => exact inTurn_tryStatement hmadeOf hapt
  | returnStatement =>
    rcases hmadeOf with hrules | hrules
    · obtain _ | ⟨hmark, ⟨⟩⟩ := Part.listed_of_map hrules hapt
      exact .mark hmark rfl (inTurn_nil_pure.mpr trivial)
    · obtain _ | ⟨hmark, _ | ⟨hvalue, ⟨⟩⟩⟩ := Part.listed_of_map hrules hapt
      exact .mark hmark rfl (inTurn_value hvalue (fun _ => id) fun _ => trivial)
  | breakStatement | continueStatement =>
    obtain _ | ⟨hmark, ⟨⟩⟩ := Part.listed_of_map hmadeOf hapt
    exact .mark hmark rfl (inTurn_nil_pure.mpr trivial)
  | importStatement =>
    rcases hmadeOf with hrules | hrules
    · obtain _ | ⟨hmark, _ | ⟨hpath, ⟨⟩⟩⟩ := Part.listed_of_map hrules hapt
      refine .mark hmark rfl ((inTurn_string hpath).cons fun _ _ _ => ?_)
      exact inTurn_nil_pure.mpr trivial
    · obtain _ | ⟨hmark, _ | ⟨hpath, _ | ⟨hhas, _ | ⟨hname, ⟨⟩⟩⟩⟩⟩ :=
        Part.listed_of_map hrules hapt
      refine .mark hmark rfl ((inTurn_string hpath).cons fun _ _ _ => .mark hhas rfl ?_)
      exact inTurn_name hname fun _ => trivial
  | assignment => exact inTurn_assignment hmadeOf hapt
  | expressionStatement =>
    obtain _ | ⟨hvalue, ⟨⟩⟩ := Part.listed_of_map hmadeOf hapt
    exact inTurn_value hvalue (fun _ => id) fun _ => trivial
  | _ => exact absurd hkind (by decide)

end Statements

section Rules

variable {span : Span} {parts : List Part}

/-- A program is made from its statements in turn. -/
theorem inTurn_programStatements (text : String)
    (hmadeOf : Rule.program.MadeOf (parts.map Part.rule)) (hapt : ∀ part ∈ parts, part.Apt) :
    InTurn (Rule.OwnFault .program parts) parts (assemble .program span text parts)
      (Meaning.Of .program) := by
  obtain ⟨names, hnames, hrules⟩ := hmadeOf
  obtain ⟨statements, _, rfl, rfl, hend⟩ := List.map_eq_append_iff.mp hrules
  obtain ⟨last, rfl, hlast⟩ := List.map_eq_singleton_iff.mp hend
  obtain ⟨hstatements, haptLast⟩ := List.forall_mem_append.mp hapt
  have hkind := (Part.listed_of_map rfl hstatements).all_of hnames
  have hfilter : (statements ++ [last]).filter (·.rule != .endOfInput) = statements := by
    rw [List.filter_append, List.filter_eq_self.mpr fun part h => by simp [(hkind part h).1]]
    simp [hlast]
  dsimp only [assemble]
  rw [hfilter]
  refine (inTurn_mapM fun part h => inTurn_statement (hkind part h)).append fun _ _ _ => ?_
  exact .mark ⟨hlast, haptLast last (List.mem_singleton_self _)⟩ rfl (inTurn_nil_pure.mpr ⟨_, rfl⟩)

/-- A struct literal is made from its path and its fields in turn. -/
theorem inTurn_structLiteral (text : String)
    (hmadeOf : Rule.structLiteral.MadeOf (parts.map Part.rule)) (hapt : ∀ part ∈ parts, part.Apt) :
    InTurn (Rule.OwnFault .structLiteral parts) parts (assemble .structLiteral span text parts)
      (Meaning.Of .structLiteral) := by
  obtain ⟨names, hnames, hrules⟩ := hmadeOf
  obtain _ | ⟨hpath, hfields⟩ := Part.listed_of_map hrules hapt
  refine (inTurn_structPath hpath).cons fun path _ hne => ?_
  cases path with
  | nil => exact absurd rfl hne
  | cons root members =>
    refine inTurn_all (fun part hpart => ?_) (Part.Listed.all_of hfields hnames) fun _ _ => ⟨_, rfl⟩
    refine (inTurn_means hpart).cons fun meaning _ hof => ?_
    obtain ⟨field, rfl⟩ := hof
    exact inTurn_nil_pure.mpr trivial

/-- A dictionary is made from its entries in turn. -/
theorem inTurn_dictionary (text : String)
    (hmadeOf : Rule.dictionary.MadeOf (parts.map Part.rule)) (hapt : ∀ part ∈ parts, part.Apt) :
    InTurn (Rule.OwnFault .dictionary parts) parts (assemble .dictionary span text parts)
      (Meaning.Of .dictionary) := by
  have hentries := (Part.listed_of_map rfl hapt).all_of hmadeOf
  refine inTurn_all (fun part hpart => ?_) hentries fun _ _ => ⟨_, rfl⟩
  refine (inTurn_means hpart).cons fun meaning _ hof => ?_
  obtain ⟨entry, rfl⟩ := hof
  exact inTurn_nil_pure.mpr trivial

/-- What a rule means is made from its parts in turn. -/
theorem inTurn_assemble {rule : Rule} (text : String)
    (hmadeOf : rule.MadeOf (parts.map Part.rule)) (hapt : ∀ part ∈ parts, part.Apt)
    (hliteral : rule = .number → (readNumber? text.toList).isSome) :
    InTurn (rule.OwnFault parts) parts (assemble rule span text parts) (Meaning.Of rule) := by
  cases rule with
  | varDeclaration | structDeclaration | methodDeclaration | ifStatement | loopStatement
  | forStatement | tryStatement | returnStatement | breakStatement | continueStatement
  | importStatement | assignment | expressionStatement =>
    refine (inTurn_assembleStatementForm (by decide) hmadeOf hapt).finish fun _ _ _ => ?_
    exact inTurn_nil_pure.mpr ⟨_, rfl⟩
  | program => exact inTurn_programStatements text hmadeOf hapt
  | singleExpression =>
    obtain _ | ⟨hvalue, _ | ⟨hend, ⟨⟩⟩⟩ := Part.listed_of_map hmadeOf hapt
    refine (inTurn_expression hvalue fun _ => id).cons fun _ _ _ => ?_
    exact .mark hend rfl (inTurn_nil_pure.mpr ⟨_, rfl⟩)
  | block =>
    exact inTurn_all (fun _ => inTurn_statement) ((Part.listed_of_map rfl hapt).all_of hmadeOf)
      fun _ _ => ⟨_, rfl⟩
  | statement =>
    obtain ⟨kind, hkind, hrules⟩ := hmadeOf
    obtain _ | ⟨hpart, ⟨⟩⟩ := Part.listed_of_map hrules hapt
    refine (inTurn_means hpart).cons fun meaning _ hof => ?_
    rcases hof.statement hkind with ⟨form, rfl⟩ | ⟨declaration, rfl⟩
    · exact inTurn_nil_pure.mpr ⟨_, rfl⟩
    · exact inTurn_nil_pure.mpr ⟨_, rfl⟩
  | functionDeclaration =>
    obtain _ | ⟨hmark, _ | ⟨hname, _ | ⟨hparameters, _ | ⟨hbody, ⟨⟩⟩⟩⟩⟩ :=
      Part.listed_of_map hmadeOf hapt
    refine .mark hmark rfl ((inTurn_identifier hname).cons fun _ _ _ => ?_)
    exact inTurn_parametersAndBody hparameters hbody fun _ _ => ⟨_, rfl⟩
  | parameterList =>
    exact inTurn_all (fun _ => inTurn_identifier) ((Part.listed_of_map rfl hapt).all_of hmadeOf)
      fun _ _ => ⟨_, rfl⟩
  | elseifClause =>
    rcases hmadeOf with hrules | hrules
    · obtain _ | ⟨hmark, _ | ⟨hcondition, _ | ⟨hbody, ⟨⟩⟩⟩⟩ := Part.listed_of_map hrules hapt
      exact .mark hmark rfl (inTurn_valueAndBody hcondition hbody fun _ _ => ⟨_, rfl⟩)
    · obtain _ | ⟨hmark, _ | ⟨hif, _ | ⟨hcondition, _ | ⟨hbody, ⟨⟩⟩⟩⟩⟩ :=
        Part.listed_of_map hrules hapt
      refine .mark hmark rfl (.mark hif rfl ?_)
      exact inTurn_valueAndBody hcondition hbody fun _ _ => ⟨_, rfl⟩
  | elseClause | catchClause | finallyClause =>
    obtain _ | ⟨hmark, _ | ⟨hbody, ⟨⟩⟩⟩ := Part.listed_of_map hmadeOf hapt
    exact .mark hmark rfl (inTurn_body hbody fun _ => ⟨_, rfl⟩)
  | expression =>
    rcases hmadeOf with hrules | hrules
    · obtain _ | ⟨hvalue, ⟨⟩⟩ := Part.listed_of_map hrules hapt
      exact inTurn_value hvalue (fun _ => id) fun _ => ⟨_, rfl⟩
    · obtain _ | ⟨hcondition, _ | ⟨htail, ⟨⟩⟩⟩ := Part.listed_of_map hrules hapt
      refine (inTurn_expression hcondition fun _ => id).cons fun _ _ _ => ?_
      refine (inTurn_means htail).cons fun meaning _ hof => ?_
      obtain ⟨thenValue, elseValue, rfl⟩ := hof
      exact inTurn_nil_pure.mpr ⟨_, rfl⟩
  | ternaryTail =>
    obtain _ | ⟨hthen, _ | ⟨helse, ⟨⟩⟩⟩ := Part.listed_of_map hmadeOf hapt
    exact inTurn_twoValues hthen helse fun _ _ => ⟨_, _, rfl⟩
  | binaryExpr =>
    refine (inTurn_row hapt hmadeOf).finish fun row _ hrow => ?_
    obtain ⟨whole, _, htree, _⟩ := exists_grouping_of_row hrow
    rw [htree]
    exact inTurn_nil_pure.mpr ⟨_, rfl⟩
  | postfixExpr =>
    obtain ⟨kind, hkind, chain, hchain, hrules⟩ := hmadeOf
    obtain _ | ⟨hfirst, hmembers⟩ := Part.listed_of_map hrules hapt
    refine (inTurn_primary hfirst hkind).cons fun value _ _ => ?_
    refine (inTurn_foldlM (fun object part hpart => ?_) value).finish fun _ _ _ =>
      inTurn_nil_pure.mpr ⟨_, rfl⟩
    obtain ⟨rule, hrule, hmember⟩ := Part.Listed.exists_rule hmembers hpart
    exact inTurn_postfixAfter hmember (hchain rule hrule) object
  | callArguments | array =>
    exact inTurn_all (fun _ hpart => inTurn_expression hpart fun _ => id)
      ((Part.listed_of_map rfl hapt).all_of hmadeOf) fun _ _ => ⟨_, rfl⟩
  | memberAccess =>
    obtain _ | ⟨hname, ⟨⟩⟩ := Part.listed_of_map hmadeOf hapt
    exact inTurn_name hname fun _ => ⟨_, rfl⟩
  | indexAccess =>
    rcases hmadeOf with hrules | hrules
    · obtain _ | ⟨hbounds, ⟨⟩⟩ := Part.listed_of_map hrules hapt
      refine (inTurn_means hbounds).cons fun meaning _ hof => ?_
      obtain ⟨start, stop, rfl⟩ := hof
      exact inTurn_nil_pure.mpr (.inr ⟨_, _, rfl⟩)
    · obtain _ | ⟨hindex, ⟨⟩⟩ := Part.listed_of_map hrules hapt
      refine (inTurn_means hindex).cons fun meaning _ hof => ?_
      obtain ⟨index, rfl⟩ := hof
      exact inTurn_nil_pure.mpr (.inl ⟨_, rfl⟩)
  | sliceBounds =>
    obtain ⟨start, hstart, stop, hstop, hrules⟩ := hmadeOf
    have hlisted := Part.listed_of_map hrules hapt
    refine (inTurn_sliceBounds fun part hpart => ?_).finish fun _ _ _ =>
      inTurn_nil_pure.mpr ⟨_, _, rfl⟩
    obtain ⟨rule, hrule, hpartRule⟩ := hlisted.exists_rule hpart
    refine ⟨rule, ?_, hpartRule⟩
    simp only [List.mem_cons, List.not_mem_nil, or_false] at hstart hstop
    rcases hstart with rfl | rfl <;> rcases hstop with rfl | rfl <;> simp_all
  | sliceStart | sliceEnd =>
    obtain _ | ⟨hvalue, ⟨⟩⟩ := Part.listed_of_map hmadeOf hapt
    exact inTurn_value hvalue (fun _ => id) fun _ => ⟨_, rfl⟩
  | number =>
    obtain rfl := List.map_eq_nil_iff.mp hmadeOf
    obtain ⟨value, hvalue⟩ := Option.isSome_iff_exists.mp (hliteral rfl)
    dsimp only [assemble]
    rw [hvalue]
    exact inTurn_nil_pure.mpr ⟨_, rfl⟩
  | string =>
    obtain ⟨content, rfl, hcontent⟩ := List.map_eq_singleton_iff.mp hmadeOf
    refine .mark ⟨hcontent, hapt content (List.mem_singleton_self _)⟩ rfl ?_
    dsimp only [assemble]
    cases hresolved : resolveEscapes content.span.start [] content.text.toList with
    | ok text => exact inTurn_nil_pure.mpr ⟨_, rfl⟩
    | error fault => exact .inl (.escape hresolved)
  | functionLiteral =>
    obtain _ | ⟨hmark, _ | ⟨hparameters, _ | ⟨hbody, ⟨⟩⟩⟩⟩ := Part.listed_of_map hmadeOf hapt
    exact .mark hmark rfl (inTurn_parametersAndBody hparameters hbody fun _ _ => ⟨_, rfl⟩)
  | structLiteral => exact inTurn_structLiteral text hmadeOf hapt
  | structPath =>
    obtain ⟨names, hnames, hrules⟩ := hmadeOf
    have hkind := (Part.listed_of_map hrules hapt).all_of (List.forall_mem_cons.mpr ⟨rfl, hnames⟩)
    refine inTurn_all (fun _ => inTurn_identifier) hkind fun made hlength => ⟨_, rfl, ?_⟩
    -- there are as many names as parts, and the path has a root
    obtain ⟨root, members, rfl, -, -⟩ := List.map_eq_cons_iff.mp hrules
    rintro rfl
    contradiction
  | structField =>
    obtain _ | ⟨hname, _ | ⟨hvalue, ⟨⟩⟩⟩ := Part.listed_of_map hmadeOf hapt
    exact inTurn_nameAndValue hname hvalue fun _ _ => ⟨_, rfl⟩
  | dictionary => exact inTurn_dictionary text hmadeOf hapt
  | dictionaryEntry =>
    obtain ⟨kind, hkind, hrules⟩ := hmadeOf
    obtain _ | ⟨hkey, _ | ⟨hvalue, ⟨⟩⟩⟩ := Part.listed_of_map hrules hapt
    refine (inTurn_entryKey hkey hkind).cons fun _ _ _ => ?_
    exact inTurn_value hvalue (fun _ => id) fun _ => ⟨_, rfl⟩
  | _ =>
    obtain rfl := List.map_eq_nil_iff.mp hmadeOf
    exact inTurn_nil_pure.mpr rfl

end Rules

/-- What is looked at as it is always means just that. -/
theorem assemble_of_isMark {rule : Rule} (hmark : rule.isMark) (span : Span) (text : String)
    (parts : List Part) : assemble rule span text parts = .ok .token := by
  cases rule <;> first | rfl | exact absurd hmark (by decide)

namespace Node

/-- Something holds of a node and of every node inside it. -/
inductive Throughout (property : Node → Prop) : Node → Prop
  | intro {node : Node} (hhere : property node)
      (hinside : ∀ child ∈ node.children, child.Throughout property) : node.Throughout property

/-- A node with the parts that its syntax tree is made from; as a number literal it denotes a
number. -/
structure WellFormed (node : Node) : Prop where
  madeOf : node.rule.MadeOf (node.children.map Node.rule)
  literal : node.rule = .number → (readNumber? node.text.toList).isSome

end Node

/-- Whatever is matched, the nodes that are left are well-formed inside and out. -/
theorem Matches.wellFormed {mode : Mode} {pattern : Pattern} {cursor next : Cursor}
    {nodes : List Node} (hfound : Matches mode pattern cursor nodes next) :
    ∀ node ∈ nodes, node.Throughout Node.WellFormed := by
  induction hfound with
  | start | finish | word | range | anything | absent | optNone | manyNone =>
    exact List.forall_mem_nil _
  | token _ ih | altFirst _ ih | altSecond _ ih | optSome _ ih | manyFirst _ ih => exact ih
  | seq _ _ ihFront ihBack => exact List.forall_mem_append.mpr ⟨ihFront, ihBack⟩
  | manyNext _ _ ihSofar ihRound => exact List.forall_mem_append.mpr ⟨ihSofar, ihRound⟩
  | node _ hinside ih =>
    refine List.forall_mem_singleton.mpr
      (.intro ⟨Rule.madeOf_of_yields hinside.takes.yields, ?_⟩ ih)
    rintro rfl
    exact isSome_readNumber?_of_spells hinside.spells_textTo

@[simp] theorem mem_partsOf {nodes : List Node} {part : Part} :
    part ∈ partsOf nodes ↔ ∃ node ∈ nodes, node.part = part := by
  simp [partsOf_eq_map]

/-- What a well-formed node means is made from the nodes inside in turn. -/
theorem Node.WellFormed.inTurn {node : Node} (hwellFormed : node.WellFormed)
    (hapt : ∀ child ∈ node.children, child.part.Apt) :
    InTurn (node.rule.OwnFault (partsOf node.children)) (partsOf node.children) node.part.meaning
      (Meaning.Of node.rule) := by
  obtain ⟨rule, start, stop, text, children⟩ := node
  refine inTurn_assemble text (by simpa using hwellFormed.madeOf) ?_ hwellFormed.literal
  simpa using hapt

/-- What a well-formed node means is settled; if it means something, so does every node inside. -/
theorem Node.WellFormed.settles {node : Node} (hwellFormed : node.WellFormed)
    (hapt : ∀ child ∈ node.children, child.part.Apt) :
    Settles node.part.meaning fun meaning =>
      meaning.Of node.rule ∧ ∀ child ∈ node.children, child.part.HasMeaning := by
  have hsettles := (hwellFormed.inTurn hapt).settles (by simpa using hapt)
    fun _ => Rule.OwnFault.ofSource
  simpa using hsettles

namespace Node.Throughout

variable {node : Node}

/-- A node that is well-formed inside and out means what its rule is there for. -/
theorem apt (hwellFormed : node.Throughout WellFormed) : node.part.Apt := by
  induction hwellFormed with
  | @intro node hhere _ ih =>
    constructor
    · rw [node.rule_part]
      exact (hhere.settles ih).mono fun _ h => h.1
    · rw [node.rule_part]
      intro hmark
      obtain ⟨rule, start, stop, text, children⟩ := node
      exact ⟨.token, assemble_of_isMark hmark ..⟩

/-- If a node that is well-formed inside and out has a meaning, so has every node inside. -/
theorem hasMeaning (hwellFormed : node.Throughout WellFormed) (hmeaning : node.part.HasMeaning) :
    node.Throughout fun inner => inner.part.HasMeaning := by
  induction hwellFormed with
  | @intro node hhere hinside ih =>
    refine .intro hmeaning fun child hmember => ih child hmember ?_
    have hsettles := hhere.settles fun child h => (hinside child h).apt
    obtain ⟨_, hmeaning'⟩ := hmeaning
    rw [hmeaning'] at hsettles
    exact hsettles.2 child hmember

end Node.Throughout

/-- The source text follows a rule, and its tree means something at every node. -/
def Rule.Understood (rule : Rule) (source : String) : Prop :=
  ∃ next root attempts, rule.readText source = .matched next [root] attempts ∧
    root.Throughout fun node => node.part.HasMeaning

/-- The part that a whole text forms is well-formed; if it has a meaning, the text is understood. -/
theorem settles_readPart (rule : Rule) (source : String) :
    Settles (readPart rule source) fun part =>
      part.rule = rule ∧ part.Apt ∧ (part.HasMeaning → rule.Understood source) := by
  have hfound := rule.matches_readText source
  unfold readPart
  split
  · rename_i hreply
    rw [hreply] at hfound
    have hwellFormed := hfound.wellFormed
    cases hfound with
    | node houtside hinside =>
      have hroot := List.forall_mem_singleton.mp hwellFormed
      refine ⟨Node.rule_part _, hroot.apt, fun hmeaning => ?_⟩
      exact ⟨_, _, _, hreply, hroot.hasMeaning hmeaning⟩
  · rename_i hreply
    rw [hreply] at hfound
    cases hfound
  all_goals trivial

/-- A parser returns a tree of a text that is understood, or the source is at fault. -/
def Justified {α : Type} (parsed : Except SyntaxError α) (understood : Prop) : Prop :=
  match parsed with
  | .ok _ => understood
  | .error error => error.fault.OfSource

/-- What is settled is so when the source text is put into its error. -/
theorem Settles.justified {α : Type} {outcome : Assembled α} {understood : Prop} (source : String)
    (hsettles : Settles outcome fun _ => understood) :
    Justified (outcome.mapError (⟨source, ·⟩)) understood := by
  cases outcome with
  | ok made => exact hsettles
  | error fault => exact hsettles

/-- A source text is refused only for what it is: it does not follow the grammar, an escape in it is
none, or it assigns to what cannot be assigned to. Whatever rule it is read by, every node of its
tree has the parts that are asked for and no others, and every number literal denotes a number. If a
tree is returned, then nothing in the text was left out of account. -/
theorem refused_for_source (source : String) (sourceFile : Option String) :
    (∀ rule : Rule, match rule.readText source with
      | .matched _ nodes _ => ∀ node ∈ nodes, node.Throughout Node.WellFormed
      | .failed _ | .exhausted => True) ∧
    Justified (parseProgram source sourceFile) (Rule.program.Understood source) ∧
    Justified (parseExpression source) (Rule.singleExpression.Understood source) := by
  refine ⟨fun rule => ?_, ?_, ?_⟩
  · have hfound := rule.matches_readText source
    split
    · rename_i hreply
      rw [hreply] at hfound
      exact hfound.wellFormed
    all_goals trivial
  · refine Settles.justified source ((settles_readPart .program source).bind fun part h => ?_)
    obtain ⟨hrule, hapt, hunderstood⟩ := h
    refine hapt.means.bind fun meaning hmeaning => ?_
    rw [hrule] at hmeaning
    obtain ⟨⟨program, rfl⟩, hmeans⟩ := hmeaning
    exact hunderstood hmeans
  · refine Settles.justified source ((settles_readPart .singleExpression source).bind
      fun part h => ?_)
    obtain ⟨hrule, hapt, hunderstood⟩ := h
    exact (Part.Apt.expression ⟨hrule, hapt⟩ fun _ => id).mono fun _ => hunderstood

end Kestrel
