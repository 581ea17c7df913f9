import Kestrel.Proofs.Grammar.Statement
import Kestrel.Proofs.Syntax.Comment
import Kestrel.Proofs.Syntax.Spans

/-!
# Two ways to parse an expression

A text can be parsed as an expression or as a program. A text that is an expression is a program of
one statement, which is the same expression at the same place; and a program of one expression is
an expression on its own, unless a semicolon comes after it.
-/

namespace Kestrel

/-- Whether a semicolon comes after the expression that a source text starts with. -/
def semicolonFollows (source : String) : Bool :=
  let depth := Rule.depthPerCharacter * (source.length + 2)
  match Rule.expression.read depth .spaced (Cursor.ofText source).skipGap .none with
  | .matched next _ _ => next.skipGap.rest.head? == some ';'
  | .failed _ | .exhausted => false

/-- The stretch of a source text from the first character of it that is neither a blank nor in a
comment up to its end. -/
def statementSpan (source : String) : Span :=
  .between (Cursor.ofText source).skipGap.position (source.toList.foldl Position.after .origin)

/-- All of a source. -/
def Span.whole (source : String) : Span := ⟨0, source.utf8ByteSize, 1⟩

/-- From the start of a text to where nothing is left is all of it. -/
theorem Cursor.LeadsTo.whole {source : String} {last : Cursor}
    (hleads : (Cursor.ofText source).LeadsTo last) (hends : last.rest = []) :
    Span.between .origin last.position = .whole source := by
  obtain ⟨taken, hrest, hposition⟩ := hleads
  rw [hends, List.append_nil] at hrest
  rw [hposition, Position.foldl_after, ← hrest, Cursor.ofText, String.ofList_toList,
    Span.between, Span.whole]
  simp [Position.origin]

section Assembling

variable {rule : Rule} {span : Span} {text : String} {parts : List Part} {value : Expression}
  {statement : Statement}

/-- The only form of a statement that is an expression is made of one part. -/
theorem gives_expression_form : Gives (assembleStatementForm rule span parts) fun form =>
    ∀ value, form = .expression value →
      rule = .expressionStatement ∧ ∃ part, parts = [part] ∧ part.expression = .ok value := by
  by_cases hassignment : rule = .assignment
  · subst hassignment
    rcases parts with _ | ⟨target, _ | ⟨sign, _ | ⟨assigned, _ | _⟩⟩⟩ <;> try exact gives_error
    refine gives_bind.mpr fun target _ => ?_
    split
    · split
      · simp
      · exact gives_error
    · split <;> exact gives_error
  by_cases hexpression : rule = .expressionStatement
  · subst hexpression
    rcases parts with _ | ⟨part, _ | _⟩ <;> try exact gives_error
    refine gives_bind.mpr fun made hmade => gives_pure.mpr ?_
    rintro value ⟨⟩
    exact ⟨rfl, part, rfl, hmade⟩
  unfold assembleStatementForm
  split
  all_goals first
    | exact absurd rfl hassignment
    | exact absurd rfl hexpression
    | simp

/-- What a function's declaration means is no form of a statement. -/
theorem gives_function : Gives (assemble .functionDeclaration span text parts) fun meaning =>
    ∀ form, meaning ≠ .statementForm form := by
  by_cases hfour : ∃ word name parameters body, parts = [word, name, parameters, body]
  · obtain ⟨word, name, parameters, body, rfl⟩ := hfour
    simp [assemble]
  · have hfault : assemble .functionDeclaration span text parts =
        .error (.unexpectedRule span Rule.functionDeclaration.description "end of rule") := by
      rcases parts with _ | ⟨_, _ | ⟨_, _ | ⟨_, _ | ⟨_, _ | _⟩⟩⟩⟩ <;>
        first | rfl | exact absurd ⟨_, _, _, _, rfl⟩ hfour
    rw [hfault]
    exact gives_error

/-- A statement that means an expression is one. -/
theorem expression_of_assemble (hkind : rule ∈ Rule.otherStatements ++ [.expressionStatement])
    (hmeaning : assemble rule span text parts = .ok (.statementForm (.expression value))) :
    rule = .expressionStatement ∧ ∃ part, parts = [part] ∧ part.expression = .ok value := by
  by_cases hfunction : rule = .functionDeclaration
  · subst hfunction
    exact absurd rfl (gives_function _ hmeaning (.expression value))
  · have hform : assemble rule span text parts =
        Meaning.statementForm <$> assembleStatementForm rule span parts := by
      cases rule <;> first
        | exact absurd hkind (by decide) | exact absurd rfl hfunction | rfl
    have hgives : Gives (Meaning.statementForm <$> assembleStatementForm rule span parts)
        fun meaning => meaning = .statementForm (.expression value) →
          rule = .expressionStatement ∧ ∃ part, parts = [part] ∧ part.expression = .ok value :=
      gives_map.mpr (gives_expression_form.mono fun form hform h => hform value (by cases h; rfl))
    exact hgives _ (hform ▸ hmeaning) rfl

/-- One statement alone comes from one node. -/
theorem eq_singleton_of_mapM {nodes : List Node}
    (hmade : (partsOf nodes).mapM Part.statement = .ok [statement]) :
    ∃ node, nodes = [node] ∧ node.part.statement = .ok statement := by
  have hlength := (gives_mapM (fun _ _ => gives_true) _ hmade).2
  obtain ⟨part, hpart⟩ := List.length_eq_one_iff.mp hlength.symm
  have hnodes : nodes.map Node.part = [part] := by rw [← partsOf_eq_map, hpart]
  obtain ⟨node, rfl, rfl⟩ := List.map_eq_singleton_iff.mp hnodes
  refine ⟨node, rfl, ?_⟩
  rw [hpart] at hmade
  cases h : node.part.statement with
  | ok found =>
    rw [List.mapM_cons, h] at hmade
    cases hmade
    rfl
  | error fault =>
    rw [List.mapM_cons, h] at hmade
    cases hmade

end Assembling

section Reading

variable {cursor last next : Cursor} {nodes : List Node} {name : Rule}

/-- The start is read where a text starts. -/
theorem reads_start (hstart : cursor.position.offset = 0) :
    Reads .spaced .start cursor (some ([], cursor)) :=
  .start (by rw [if_pos hstart])

/-- The start takes nothing and leaves no node. -/
theorem start_inv (hreads : Reads .spaced .start cursor (some (nodes, next))) :
    nodes = [] ∧ next = cursor := by
  cases hreads with
  | start hdecided =>
    split at hdecided <;> cases hdecided
    exact ⟨rfl, rfl⟩

/-- The node that the end of the input leaves. -/
def Rule.endOfInputAt (cursor : Cursor) : Node := Rule.endOfInput.nodeOf cursor cursor []

/-- The end of the input is read where nothing is left, and leaves its node. -/
theorem reads_endOfInput (hends : cursor.rest = []) :
    Reads .spaced (.rule .endOfInput) cursor (some ([Rule.endOfInputAt cursor], cursor)) :=
  .node (by decide) (.finish (by rw [hends])) rfl

/-- The end of the input is read where nothing is left. -/
theorem endOfInput_inv (hreads : Reads .spaced (.rule .endOfInput) cursor (some (nodes, last))) :
    cursor.rest = [] ∧ nodes = [Rule.endOfInputAt cursor] ∧ last = cursor := by
  by_cases hends : cursor.rest = []
  · cases hreads.unique (reads_endOfInput hends)
    exact ⟨hends, rfl, rfl⟩
  · obtain ⟨_, hbody, -⟩ := hreads.rule_inv (by decide)
    cases hbody with
    | finish hdecided =>
      rw [if_neg (by simpa using hends)] at hdecided
      cases hdecided

/-- Every node that a repetition of a rule leaves is one of the rule. -/
theorem Reads.rule_of_many
    (hreads : Reads .spaced (.many (.rule name)) cursor (some (nodes, last))) :
    ∀ node ∈ nodes, node.rule = name := by
  -- by induction on the reading, of which only the cases of a repetition are left
  generalize hmode : Mode.spaced = mode, hpattern : Pattern.many (.rule name) = pattern,
    hverdict : some (nodes, last) = verdict at hreads
  induction hreads generalizing nodes last with
  | manyNone =>
    cases hverdict
    simp
  | manyStop hround =>
    cases hmode
    cases hpattern
    cases hverdict
    obtain ⟨_, -, rfl⟩ := hround.rule_inv (by decide)
    simp [Rule.nodeOf]
  | manyNext hround hagain hothers ihRound ihAgain ihOthers =>
    cases hmode
    cases hpattern
    cases hverdict
    obtain ⟨_, -, rfl⟩ := hround.rule_inv (by decide)
    simpa [Rule.nodeOf] using ihOthers rfl rfl rfl
  | _ => cases hpattern

/-- A repetition of a rule that has a round leaves a node. -/
theorem Reads.ne_nil_of_many {found : List Node × Cursor}
    (hreads : Reads .spaced (.many (.rule name)) cursor (some (nodes, last)))
    (hround : Reads .spaced (.rule name) cursor (some found)) : nodes ≠ [] := by
  cases hreads with
  | manyNone hrefused => cases hrefused.unique hround
  | manyStop hround | manyNext hround =>
    obtain ⟨_, -, rfl⟩ := hround.rule_inv (by decide)
    exact List.cons_ne_nil _ _

/-- A repetition of a rule that leaves one node had one round. -/
theorem Reads.round_of_many {node : Node}
    (hreads : Reads .spaced (.many (.rule name)) cursor (some ([node], last))) :
    Reads .spaced (.rule name) cursor (some ([node], last)) := by
  generalize hnodes : [node] = nodes at hreads
  cases hreads with
  | manyNone => cases hnodes
  | manyStop hround => exact hround
  | manyNext hround hagain hothers =>
    obtain ⟨_, -, rfl⟩ := hround.rule_inv (by decide)
    exact absurd (List.cons.inj hnodes).2.symm (hothers.ne_nil_of_many hagain)

/-- A form of a statement that is all there is left of a text is read as the only statement. -/
theorem reads_only_statement {form : Node}
    (hreads : Reads .spaced .anyStatement cursor (some ([form], last)))
    (hends : last.skipGap.rest = []) :
    Reads .spaced (.many (.rule .statement)) cursor
      (some ([Rule.statement.nodeOf cursor last.skipGap [form]], last.skipGap)) := by
  -- the gap before the semicolon that is not there belongs to the statement all the same
  have hsemicolon : Reads .spaced (.opt (.text ";")) last.skipGap (some ([], last.skipGap)) :=
    .optNone (Pattern.refused_at_end (by decide) rfl hends)
  have hstatement : Reads .spaced (.rule .statement) cursor
      (some ([Rule.statement.nodeOf cursor last.skipGap [form]], last.skipGap)) :=
    .node (by decide) (hreads.seq hsemicolon rfl) rfl
  refine hstatement.manyStop ?_
  rw [Pattern.between, Cursor.skipGap_skipGap]
  exact Rule.refused_at_end rfl hends

/-- Statements that are all there is in a text are a program. -/
theorem reads_program (hstart : cursor.position.offset = 0)
    (hreads : Reads .spaced (.many (.rule .statement)) cursor.skipGap (some (nodes, last)))
    (hends : last.skipGap.rest = []) :
    Reads .spaced (.rule .program) cursor
      (some ([Rule.program.nodeOf cursor last.skipGap
        (nodes ++ [Rule.endOfInputAt last.skipGap])], last.skipGap)) :=
  .node (by decide) ((reads_start hstart).seq (hreads.seq (reads_endOfInput hends) rfl) rfl) rfl

/-- A program is read as statements up to the end of the input. -/
theorem program_inv (hreads : Reads .spaced (.rule .program) cursor (some (nodes, last))) :
    ∃ statements next,
      Reads .spaced (.many (.rule .statement)) cursor.skipGap (some (statements, next)) ∧
      next.skipGap.rest = [] ∧ last = next.skipGap ∧
      nodes = [Rule.program.nodeOf cursor last (statements ++ [Rule.endOfInputAt last])] := by
  obtain ⟨_, hbody, rfl⟩ := hreads.rule_inv (by decide)
  obtain ⟨_, first, _, hstart, hothers, rfl⟩ := hbody.seq_inv
  obtain ⟨rfl, rfl⟩ := start_inv hstart
  obtain ⟨statements, next, finish, hstatements, hend, rfl⟩ := hothers.seq_inv
  obtain ⟨hrest, rfl, rfl⟩ := endOfInput_inv hend
  exact ⟨statements, next, hstatements, hrest, rfl, rfl⟩

/-- An expression that is all there is in a text is a single one. -/
theorem reads_singleExpression (hstart : cursor.position.offset = 0)
    (hreads : Reads .spaced (.rule .expression) cursor.skipGap (some (nodes, last)))
    (hends : last.skipGap.rest = []) :
    Reads .spaced (.rule .singleExpression) cursor
      (some ([Rule.singleExpression.nodeOf cursor last.skipGap
        (nodes ++ [Rule.endOfInputAt last.skipGap])], last.skipGap)) :=
  .node (by decide) ((reads_start hstart).seq (hreads.seq (reads_endOfInput hends) rfl) rfl) rfl

/-- A single expression is read as an expression up to the end of the input. -/
theorem singleExpression_inv
    (hreads : Reads .spaced (.rule .singleExpression) cursor (some (nodes, last))) :
    ∃ inner next, Reads .spaced (.rule .expression) cursor.skipGap (some ([inner], next)) ∧
      next.skipGap.rest = [] ∧
      nodes = [Rule.singleExpression.nodeOf cursor last [inner, Rule.endOfInputAt last]] := by
  obtain ⟨_, hbody, rfl⟩ := hreads.rule_inv (by decide)
  obtain ⟨_, first, _, hstart, hothers, rfl⟩ := hbody.seq_inv
  obtain ⟨rfl, rfl⟩ := start_inv hstart
  obtain ⟨inner, next, finish, hinner, hend, rfl⟩ := hothers.seq_inv
  obtain ⟨hrest, rfl, rfl⟩ := endOfInput_inv hend
  obtain ⟨_, -, rfl⟩ := hinner.rule_inv (by decide)
  exact ⟨_, next, hinner, hrest, rfl⟩

end Reading

section Parsing

variable {source : String} {sourceFile : Option String} {rule : Rule} {part : Part}
  {value : Expression} {program : Program} {cursor next : Cursor} {nodes : List Node}

/-- What is read of a whole text is the part that the text forms. -/
theorem readPart_of_reads {node : Node}
    (hreads : Reads .spaced (.rule rule) (.ofText source) (some ([node], next))) :
    readPart rule source = .ok node.part := by
  have hverdict : (rule.readText source).verdict? = some (some ([node], next)) :=
    Rule.verdict?_read (Rule.enough_of_in Cursor.ofText_in) hreads .none
  unfold readPart
  cases h : rule.readText source with
  | matched last nodes attempts =>
    rw [h] at hverdict
    cases hverdict
    rfl
  | failed | exhausted =>
    rw [h] at hverdict
    cases hverdict

/-- A part that a whole text forms was read. -/
theorem exists_reads_of_readPart (hread : readPart rule source = .ok part) :
    ∃ node others next, Reads .spaced (.rule rule) (.ofText source) (some (node :: others, next)) ∧
      part = node.part := by
  unfold readPart at hread
  cases h : rule.readText source with
  | matched next nodes attempts =>
    rw [h] at hread
    cases nodes with
    | nil => cases hread
    | cons node others =>
      cases hread
      exact ⟨node, others, next, Rule.reads_of_matched h, rfl⟩
  | failed | exhausted =>
    rw [h] at hread
    cases hread

/-- Whether a reply is one node for all of a text. -/
def Reply.isWhole : Reply → Bool
  | .matched next [_] _ => next.rest.isEmpty
  | _ => false

/-- A reply that a whole text is one node gives this node. -/
theorem Reply.exists_of_isWhole {reply : Reply} (hwhole : reply.isWhole) :
    ∃ next block attempts, reply = .matched next [block] attempts ∧ next.rest = [] := by
  unfold isWhole at hwhole
  split at hwhole
  · exact ⟨_, _, _, rfl, by simpa using hwhole⟩
  · contradiction

/-- A single expression stands for its expression. -/
theorem expression_singleExpression (cursor next : Cursor) (node : Node) (others : List Node) :
    (Rule.singleExpression.nodeOf cursor next (node :: others)).part.expression =
      node.part.expression := by
  have hmeaning : (Rule.singleExpression.nodeOf cursor next (node :: others)).part.meaning =
      Meaning.expression <$> node.part.expression := rfl
  rw [Part.expression, hmeaning]
  cases node.part.expression <;> rfl

/-- A text in which one expression is all that is read is parsed as what this stands for. -/
theorem parseExpression_of_reads {node : Node}
    (hreads : Reads .spaced (.rule .expression) (Cursor.ofText source).skipGap
      (some ([node], next))) (hends : next.skipGap.rest = []) :
    parseExpression source = node.part.expression.mapError (⟨source, ·⟩) := by
  unfold parseExpression
  rw [readPart_of_reads (reads_singleExpression rfl hreads hends)]
  exact congrArg (Except.mapError (SyntaxError.mk source)) (expression_singleExpression ..)

/-- A text is parsed as an expression exactly if one is all that is read in it. -/
theorem parseExpression_eq_ok_iff : parseExpression source = .ok value ↔
    ∃ node next,
      Reads .spaced (.rule .expression) (Cursor.ofText source).skipGap (some ([node], next)) ∧
        next.skipGap.rest = [] ∧ node.part.expression = .ok value := by
  constructor
  · intro hparsed
    cases hread : readPart .singleExpression source with
    | error fault =>
      rw [parseExpression, hread] at hparsed
      cases hparsed
    | ok part =>
      obtain ⟨node, others, last, hreads, -⟩ := exists_reads_of_readPart hread
      obtain ⟨inner, next, hinner, hends, -⟩ := singleExpression_inv hreads
      rw [parseExpression_of_reads hinner hends] at hparsed
      exact ⟨inner, next, hinner, hends, mapError_eq_ok_iff.mp hparsed⟩
  · rintro ⟨node, next, hreads, hends, hvalue⟩
    rw [parseExpression_of_reads hreads hends, hvalue]
    rfl

/-- The statements of a program are all of its parts but the end of the input. -/
theorem filter_partsOf (hstatements : ∀ node ∈ nodes, node.rule = .statement) :
    (partsOf (nodes ++ [Rule.endOfInputAt cursor])).filter (·.rule != .endOfInput) =
      partsOf nodes := by
  have hkept : ∀ part ∈ partsOf nodes, part.rule != .endOfInput := by
    intro part hmem
    rw [partsOf_eq_map] at hmem
    obtain ⟨node, hnode, rfl⟩ := List.mem_map.mp hmem
    rw [Node.rule_part, hstatements node hnode]
    decide
  have hends : [(Rule.endOfInputAt cursor).part].filter (·.rule != .endOfInput) = [] := rfl
  rw [partsOf_eq_map, List.map_append, ← partsOf_eq_map, List.filter_append,
    List.filter_eq_self.mpr hkept, List.map_singleton, hends, List.append_nil]

/-- A program stands for its statements. -/
theorem meaning_program (hstatements : ∀ node ∈ nodes, node.rule = .statement)
    (start stop : Cursor) :
    (Rule.program.nodeOf start stop (nodes ++ [Rule.endOfInputAt cursor])).part.meaning =
      (partsOf nodes).mapM Part.statement >>= fun found =>
        .ok (.program ⟨found, none, .between start.position stop.position⟩) := by
  rw [← @filter_partsOf cursor nodes hstatements]
  rfl

/-- A text in which statements are all that is read is parsed as the program of them. -/
theorem parseProgram_of_reads
    (hreads : Reads .spaced (.many (.rule .statement)) (Cursor.ofText source).skipGap
      (some (nodes, next))) (hends : next.skipGap.rest = []) :
    parseProgram source sourceFile =
      (((partsOf nodes).mapM Part.statement).map fun statements =>
        ⟨statements, sourceFile, .between .origin next.skipGap.position⟩).mapError
          (⟨source, ·⟩) := by
  unfold parseProgram
  dsimp only
  rw [readPart_of_reads (reads_program rfl hreads hends)]
  change Except.mapError _ (Part.meaning _ >>= _) = _
  rw [meaning_program hreads.rule_of_many]
  cases (partsOf nodes).mapM Part.statement <;> rfl

/-- A text is parsed as a program exactly if statements are all that is read in it. -/
theorem parseProgram_eq_ok_iff : parseProgram source sourceFile = .ok program ↔
    ∃ nodes next,
      Reads .spaced (.many (.rule .statement)) (Cursor.ofText source).skipGap
        (some (nodes, next)) ∧
        next.skipGap.rest = [] ∧
        ∃ statements, (partsOf nodes).mapM Part.statement = .ok statements ∧
          program = ⟨statements, sourceFile, .between .origin next.skipGap.position⟩ := by
  constructor
  · intro hparsed
    cases hread : readPart .program source with
    | error fault =>
      rw [parseProgram, hread] at hparsed
      cases hparsed
    | ok part =>
      obtain ⟨node, others, last, hreads, -⟩ := exists_reads_of_readPart hread
      obtain ⟨nodes, next, hstatements, hends, -, -⟩ := program_inv hreads
      rw [parseProgram_of_reads hstatements hends, mapError_eq_ok_iff] at hparsed
      cases hmade : (partsOf nodes).mapM Part.statement with
      | error fault =>
        rw [hmade] at hparsed
        cases hparsed
      | ok made =>
        rw [hmade] at hparsed
        cases hparsed
        exact ⟨nodes, next, hstatements, hends, made, hmade, rfl⟩
  · rintro ⟨nodes, next, hreads, hends, statements, hmade, rfl⟩
    rw [parseProgram_of_reads hreads hends, hmade]
    rfl

end Parsing

section Single

variable {source : String} {sourceFile : Option String} {value : Expression} {span : Span}
  {cursor last : Cursor} {node : Node} {program : Program}

/-- A statement of an expression stands for a statement of what the expression stands for. -/
theorem statement_expressionStatement (start stop stop' : Cursor)
    (hmeans : node.part.expression = .ok value) :
    (Rule.statement.nodeOf start stop
      [Rule.expressionStatement.nodeOf start stop' [node]]).part.statement =
        .ok ⟨.expression value, .between start.position stop.position⟩ := by
  have hform : (Rule.expressionStatement.nodeOf start stop' [node]).part.meaning =
      .ok (.statementForm (.expression value)) := by
    change Meaning.statementForm <$> (StatementForm.expression <$> node.part.expression) = _
    rw [hmeans]
    rfl
  change ((Rule.expressionStatement.nodeOf start stop' [node]).part.meaning >>= _) >>= _ = _
  rw [hform]
  rfl

/-- A statement that stands for an expression is made of what means one. -/
theorem meaning_of_statement {start stop : Cursor}
    (hmeans : (Rule.statement.nodeOf start stop [node]).part.statement =
      .ok ⟨.expression value, span⟩) :
    node.part.meaning = .ok (.statementForm (.expression value)) := by
  change ((node.part.meaning >>= _) >>= _) = _ at hmeans
  cases hmeaning : node.part.meaning with
  | error fault =>
    rw [hmeaning] at hmeans
    cases hmeans
  | ok meaning =>
    rw [hmeaning] at hmeans
    cases meaning <;> cases hmeans
    rfl

/-- A statement that stands for an expression is read as one, perhaps with a semicolon after it. -/
theorem statement_inv (hreads : Reads .spaced (.rule .statement) cursor (some ([node], last)))
    (hmeans : node.part.statement = .ok ⟨.expression value, span⟩) :
    ∃ inner next, Reads .spaced (.rule .expression) cursor (some ([inner], next)) ∧
      inner.part.expression = .ok value ∧
      (last = next.skipGap ∨ next.skipGap.rest = ';' :: last.rest) := by
  obtain ⟨_, hbody, hnode⟩ := hreads.rule_inv (by decide)
  obtain ⟨front, next, back, hany, hsemicolon, rfl⟩ := hbody.seq_inv
  obtain ⟨pattern, hmem, hform⟩ := hany.oneOf_inv
  obtain ⟨rule, hkind, rfl⟩ : ∃ rule ∈ Rule.otherStatements ++ [.expressionStatement],
      Pattern.rule rule = pattern := List.mem_map.mp hmem
  obtain ⟨children, hinside, rfl⟩ := hform.rule_inv (by decide)
  have hsemicolon : back = [] ∧ (last = next.skipGap ∨ next.skipGap.rest = ';' :: last.rest) := by
    rcases hsemicolon.opt_inv with hword | ⟨-, hback, hlast⟩
    · exact ⟨hword.word_inv.2, .inr hword.rest_of_text⟩
    · exact ⟨hback, .inl hlast⟩
  obtain ⟨rfl, hends⟩ := hsemicolon
  cases hnode
  obtain ⟨rfl, part, hpart, hvalue⟩ := expression_of_assemble hkind (meaning_of_statement hmeans)
  have hexpression : Reads .spaced (.rule .expression) cursor (some (children, next)) := hinside
  obtain ⟨_, -, rfl⟩ := hexpression.rule_inv (by decide)
  cases hpart
  exact ⟨_, next, hexpression, hvalue, hends⟩

/-- A text that is an expression is a program of one statement, which is the same expression. -/
theorem parseProgram_of_parseExpression (hparsed : parseExpression source = .ok value)
    (sourceFile : Option String) : ∃ program, parseProgram source sourceFile = .ok program ∧
      program.statements = [⟨.expression value, statementSpan source⟩] := by
  obtain ⟨node, last, hreads, hends, hvalue⟩ := parseExpression_eq_ok_iff.mp hparsed
  have hlast : last.skipGap.position = source.toList.foldl Position.after .origin := by
    obtain ⟨taken, hrest, hposition⟩ : (Cursor.ofText source).LeadsTo last.skipGap :=
      (Cursor.skipGap_leads _).trans
        ((Rule.matches_of_reads hreads).takes.row.leads.trans (Cursor.skipGap_leads _))
    rw [hends, List.append_nil] at hrest
    rw [hposition, ← hrest]
    rfl
  have hstatements := reads_only_statement
    (reads_anyStatement (Cursor.skipGap_skipGap _) hreads hends) hends
  have hmade :=
    statement_expressionStatement (Cursor.ofText source).skipGap last.skipGap last hvalue
  rw [hlast] at hmade
  refine ⟨_, parseProgram_eq_ok_iff.mpr ⟨_, _, hstatements, ?_, _, ?_, rfl⟩, rfl⟩
  · rw [Cursor.skipGap_skipGap]
    exact hends
  · rw [partsOf, partsOf, List.mapM_cons, hmade]
    rfl

/-- What comes after the expression that a text starts with is what comes after its reading. -/
theorem semicolonFollows_of_reads {nodes : List Node}
    (hreads : Reads .spaced (.rule .expression) (Cursor.ofText source).skipGap
      (some (nodes, last))) :
    semicolonFollows source = (last.skipGap.rest.head? == some ';') := by
  have hverdict := Rule.verdict?_read
    (Rule.enough_of_in (Cursor.ofText_in.leads (Cursor.skipGap_leads _))) hreads .none
  unfold semicolonFollows
  dsimp only
  cases h : Rule.expression.read (Rule.depthPerCharacter * (source.length + 2)) .spaced
      (Cursor.ofText source).skipGap .none with
  | matched next nodes attempts =>
    rw [h] at hverdict
    cases hverdict
    rfl
  | failed | exhausted =>
    rw [h] at hverdict
    cases hverdict

/-- A program that is one expression is that expression on its own unless a semicolon follows. -/
theorem parseExpression_iff_of_parseProgram
    (hparsed : parseProgram source sourceFile = .ok program)
    (hsingle : program.statements = [⟨.expression value, span⟩]) :
    parseExpression source = .ok value ↔ semicolonFollows source = false := by
  rw [parseExpression_eq_ok_iff]
  constructor
  · rintro ⟨inner, last, hreads, hends, -⟩
    rw [semicolonFollows_of_reads hreads, hends]
    rfl
  · intro hbare
    obtain ⟨nodes, next, hstatements, hends, _, hmade, rfl⟩ := parseProgram_eq_ok_iff.mp hparsed
    cases hsingle
    obtain ⟨node, rfl, hmeans⟩ := eq_singleton_of_mapM hmade
    obtain ⟨inner, last, hinner, hvalue, hsemicolon⟩ :=
      statement_inv hstatements.round_of_many hmeans
    -- a semicolon that is read contradicts `hbare`; without one the expression is all there is
    rcases hsemicolon with rfl | hsemicolon
    · rw [Cursor.skipGap_skipGap] at hends
      exact ⟨inner, last, hinner, hends, hvalue⟩
    · rw [semicolonFollows_of_reads hinner, hsemicolon] at hbare
      cases hbare

/-- The two ways to parse agree: whatever is an expression is a program of one statement with the
same expression, and a program of one expression that no semicolon follows is that expression. -/
theorem entryPoints_agree (source : String) (sourceFile : Option String) (value : Expression) :
    (parseExpression source = .ok value →
      ∃ program, parseProgram source sourceFile = .ok program ∧
        program.statements = [⟨.expression value, statementSpan source⟩]) ∧
    ∀ program span, parseProgram source sourceFile = .ok program →
      program.statements = [⟨.expression value, span⟩] →
        (parseExpression source = .ok value ↔ semicolonFollows source = false) :=
  ⟨(parseProgram_of_parseExpression · sourceFile),
    fun _ _ hparsed hsingle => parseExpression_iff_of_parseProgram hparsed hsingle⟩

/-- A comparison, which is no assignment, and a semicolon that is only in a comment. -/
theorem entryPoints_agree_of_comparison : ∃ value program,
    parseExpression "a == b // ;" = .ok value ∧ parseProgram "a == b // ;" none = .ok program ∧
      program.statements = [⟨.expression value, ⟨0, 11, 1⟩⟩] ∧
      semicolonFollows "a == b // ;" = false := by
  obtain ⟨value, hvalue⟩ : ∃ value, parseExpression "a == b // ;" = .ok value :=
    exists_of_isOk (by decide +kernel)
  obtain ⟨hprogram, hexpression⟩ := entryPoints_agree "a == b // ;" none value
  obtain ⟨program, hparsed, hsingle⟩ := hprogram hvalue
  have hspan : statementSpan "a == b // ;" = ⟨0, 11, 1⟩ := by decide +kernel
  rw [hspan] at hsingle
  exact ⟨value, program, hvalue, hparsed, hsingle,
    (hexpression program _ hparsed hsingle).mp hvalue⟩

end Single

end Kestrel
