import Kestrel.Proofs.Syntax.Operand

/-!
# Guards

A guard is what decides whether a block is run: a path of names, or a ternary that ends in a guard.
Where a block comes after it, the expression there is the guard and all of it, and the statements
and clauses that ask for an expression and a block take the guard and this block.
-/

namespace Kestrel

/-- The identifier that a node of this rule stands for. -/
def Node.asIdentifier (node : Node) : Identifier := ⟨node.text, node.span⟩

/-- A guard from a cursor up to the place where its block comes, with what it stands for. -/
inductive Guard : Cursor → Cursor → Assembled Expression → Prop
  | path {cursor next : Cursor} {node : Node} {root : Identifier} {members : List Identifier}
      (hreads : Reads .spaced (.rule .structPath) cursor (some ([node], next)))
      (hnames : node.part.names = .ok (root :: members)) :
      Guard cursor next.skipGap (.ok (memberChain root members))
  | ternary {cursor afterTest opened afterThen closed stop : Cursor} {test thenNode : Node}
      {elseValue : Assembled Expression}
      (hcondition : Reads .spaced (.rule .binaryExpr) cursor (some ([test], afterTest)))
      (hquestion : Reads .spaced (.text "?") afterTest.skipGap (some ([], opened)))
      (haccepted : Reads .spaced (.rule .expression) opened.skipGap (some ([thenNode], afterThen)))
      (hcolon : Reads .spaced (.text ":") afterThen.skipGap (some ([], closed)))
      (hlast : Guard closed.skipGap stop elseValue) :
      Guard cursor stop do
        let test ← test.part.expression
        let thenValue ← thenNode.part.expression
        return ⟨.ternary test thenValue (← elseValue), .between cursor.position stop.position⟩

section Meaning

variable {cursor middle next stop : Cursor} {root tail condition body : Node}
  {names members : List Node}

/-- The part of an identifier's node is this identifier. -/
theorem identifier_part {node : Node} (hrule : node.rule = .identifier) :
    node.part.identifier = .ok node.asIdentifier := by
  obtain ⟨_, start, stop, text, children⟩ := node
  subst hrule
  rfl

/-- The names of a path stand for themselves. -/
theorem identifiers_partsOf (hrule : ∀ node ∈ names, node.rule = .identifier) :
    (partsOf names).mapM Part.identifier = .ok (names.map Node.asIdentifier) := by
  induction names with
  | nil => rfl
  | cons name names ih =>
    obtain ⟨hname, hothers⟩ := List.forall_mem_cons.mp hrule
    rw [partsOf, List.mapM_cons, identifier_part hname, ih hothers]
    rfl

/-- The names in members are identifiers. -/
theorem rule_of_members (hsame : List.Forall₂ Node.IsMember members names) :
    ∀ node ∈ names, node.rule = .identifier := by
  induction hsame with
  | nil => simp
  | cons hmember _ ih =>
    obtain ⟨_, -, hrule⟩ := hmember
    exact List.forall_mem_cons.mpr ⟨hrule, ih⟩

/-- A path lists its names. -/
theorem names_structPath (hrule : root.rule = .identifier)
    (hrules : ∀ node ∈ names, node.rule = .identifier) :
    (Rule.structPath.nodeOf cursor next (root :: names)).part.names =
      .ok (root.asIdentifier :: names.map Node.asIdentifier) := by
  have hnames := identifiers_partsOf (List.forall_mem_cons.mpr ⟨hrule, hrules⟩)
  change (Meaning.names <$> (partsOf (root :: names)).mapM Part.identifier >>= _) = _
  rw [hnames]
  rfl

/-- Members stand for a chain with their names. -/
theorem postfixAfter_members (hsame : List.Forall₂ Node.IsMember members names)
    (object : Expression) : (partsOf members).foldlM Part.postfixAfter object =
      .ok ((names.map Node.asIdentifier).foldl (fun object property =>
        ⟨.member object property, object.span.join property.span⟩) object) := by
  induction hsame generalizing object with
  | nil => rfl
  | @cons member name members names hmember _ ih =>
    obtain ⟨start, rfl, hrule⟩ := hmember
    have hmeaning : (Node.part ⟨.memberAccess, start, name.stop, "", [name]⟩).meaning =
        .ok (.memberAccess name.asIdentifier) := by
      change Meaning.memberAccess <$> name.part.identifier = _
      rw [identifier_part hrule]
      rfl
    rw [partsOf, List.foldlM_cons, Part.postfixAfter, hmeaning]
    exact ih _

/-- A path that is read as an operand stands for the chain of its names. -/
theorem meaning_of_path (hrule : root.rule = .identifier)
    (hsame : List.Forall₂ Node.IsMember members names) :
    (Rule.postfixExpr.nodeOf cursor middle (root :: members)).part.meaning =
      .ok (.expression (memberChain root.asIdentifier (names.map Node.asIdentifier))) := by
  have hprimary : root.part.primary =
      .ok ⟨.identifier root.asIdentifier.name, root.asIdentifier.span⟩ := by
    obtain ⟨_, start, stop, text, children⟩ := root
    subst hrule
    rfl
  change (root.part.primary >>= fun first =>
    (partsOf members).foldlM Part.postfixAfter first >>= fun value =>
      Except.ok (Meaning.expression value)) = _
  rw [hprimary]
  change ((partsOf members).foldlM Part.postfixAfter _ >>= _) = _
  rw [postfixAfter_members hsame]
  rfl

/-- A ternary stands for its three operands. -/
theorem expression_of_ternary {test thenNode elseNode : Node} :
    (Rule.expression.nodeOf cursor next [test,
      Rule.ternaryTail.nodeOf middle stop [thenNode, elseNode]]).part.expression = do
        let test ← test.part.expression
        let thenValue ← thenNode.part.expression
        return ⟨.ternary test thenValue (← elseNode.part.expression),
          .between cursor.position next.position⟩ := by
  change ((test.part.expression >>= fun _ => (thenNode.part.expression >>= fun _ =>
    elseNode.part.expression >>= _) >>= _) >>= _) = _
  cases test.part.expression with
  | error fault => rfl
  | ok test =>
    cases thenNode.part.expression with
    | error fault => rfl
    | ok thenValue => cases elseNode.part.expression <;> rfl

/-- A further clause stands for its condition and its block. -/
theorem meaning_of_elseif {words : List Node} (hrounds : words.length = 1 ∨ words.length = 2) :
    (Rule.elseifClause.nodeOf cursor next (words ++ [condition, body])).part.meaning = do
      let condition ← condition.part.expression
      return .branch ⟨condition, ← body.part.block, .between cursor.position next.position⟩ := by
  rcases hrounds with hone | htwo
  · obtain ⟨word, rfl⟩ := List.length_eq_one_iff.mp hone
    rfl
  · obtain ⟨word, second, rfl⟩ := List.length_eq_two.mp htwo
    rfl

/-- Further clauses come after the first one. -/
theorem gives_clauses (branch : Branch) (clauses : List Part) (others : List Branch)
    (otherwise : Option Block) :
    Gives (clauses.foldlM addClause (branch :: others, otherwise)) fun made =>
      ∃ others, made.1 = branch :: others := by
  refine gives_foldlM ⟨others, rfl⟩ fun made hfirst clause _ => ?_
  obtain ⟨others, hothers⟩ := hfirst
  unfold addClause
  refine gives_true.bind fun meaning _ => ?_
  split
  · rw [hothers]
    exact gives_ok.mpr ⟨_, rfl⟩
  · exact gives_ok.mpr ⟨others, hothers⟩
  · exact gives_error

/-- The first branch of a condition is that of the first expression and block. -/
theorem gives_if {word : Node} {clauses : List Node} :
    Gives (Rule.ifStatement.nodeOf cursor next (word :: condition :: body :: clauses)).part.meaning
      fun meaning => ∃ branch branches otherwise span,
        meaning = .statementForm (.conditional (branch :: branches) otherwise span) ∧
          condition.part.expression = .ok branch.condition ∧
          body.part.block = .ok branch.body := by
  change Gives (Meaning.statementForm <$> (condition.part.expression >>= fun condition =>
    body.part.block >>= fun body => (partsOf clauses).foldlM addClause _ >>= _)) _
  refine gives_map.mpr (gives_bind.mpr fun value hvalue => gives_bind.mpr fun block hblock =>
    gives_bind.mpr fun made hmade => gives_pure.mpr ?_)
  obtain ⟨others, hmade⟩ := gives_clauses _ _ _ _ made hmade
  exact ⟨_, others, made.2, _, by rw [← hmade], hvalue, hblock⟩

/-- What a loop goes over is what its last expression stands for. -/
theorem gives_for {word name inWord : Node} {second : List Node}
    (hrounds : second.length = 0 ∨ second.length = 1) :
    Gives (Rule.forStatement.nodeOf cursor next
      (word :: name :: (second ++ [inWord, condition, body]))).part.meaning fun meaning =>
        ∃ index item iterable block span,
          meaning = .statementForm (.forEach index item iterable block span) ∧
            condition.part.expression = .ok iterable ∧ body.part.block = .ok block := by
  rcases hrounds with hnone | hone
  · obtain rfl := List.length_eq_zero_iff.mp hnone
    change Gives (Meaning.statementForm <$> (name.part.identifier >>= fun _ =>
      condition.part.expression >>= fun _ => body.part.block >>= _)) _
    refine gives_map.mpr (gives_bind.mpr fun item _ => gives_bind.mpr fun value hvalue =>
      gives_bind.mpr fun block hblock => gives_pure.mpr ?_)
    exact ⟨none, item, value, block, _, rfl, hvalue, hblock⟩
  · obtain ⟨item, rfl⟩ := List.length_eq_one_iff.mp hone
    change Gives (Meaning.statementForm <$> (name.part.identifier >>= fun _ =>
      item.part.identifier >>= fun _ =>
        condition.part.expression >>= fun _ => body.part.block >>= _)) _
    refine gives_map.mpr (gives_bind.mpr fun index _ => gives_bind.mpr fun item _ =>
      gives_bind.mpr fun value hvalue => gives_bind.mpr fun block hblock => gives_pure.mpr ?_)
    exact ⟨some index, item, value, block, _, rfl, hvalue, hblock⟩

end Meaning

/-- Whatever comes next, the further clauses of a condition are read. -/
theorem Reads.exists_clauses (cursor : Cursor) : ∃ clauses final,
    Reads .spaced (.seq (.many (.rule .elseifClause)) (.opt (.rule .elseClause))) cursor
      (some (clauses, final)) := by
  obtain ⟨verdict, hclauses⟩ : ∃ verdict, Reads .spaced
      (.seq (.many (.rule .elseifClause)) (.opt (.rule .elseClause))) cursor verdict :=
    Pattern.exists_reads (by decide) .spaced cursor
  cases verdict with
  | some found => exact ⟨found.1, found.2, hclauses⟩
  | none =>
    cases hclauses with
    | seqRefused hfront => cases hfront
    | @seq _ _ _ _ _ _ later _ _ hback hdecided =>
      cases later with
      | none => cases hback
      | some found => cases hdecided

namespace Guard

variable {cursor stop last : Cursor} {value : Assembled Expression} {body : List Node}

/-- Where a block comes after a guard, the expression there is the guard and ends where the block
comes. -/
theorem reads (hguard : Guard cursor stop value)
    (hblock : Reads .spaced (.rule .block) stop (some (body, last))) :
    ∃ node, Reads .spaced (.rule .expression) cursor (some ([node], stop)) ∧
      node.part.expression = value := by
  induction hguard with
  | @path cursor next node root members hpath hnames =>
    obtain ⟨first, others, chain, hnodes, hrule, hmembers, hreads⟩ :=
      hpath.expression_before_block hblock
    cases hnodes
    rw [names_structPath hrule (rule_of_members hmembers)] at hnames
    cases hnames
    refine ⟨_, hreads, (expression_of_operand rfl).trans ?_⟩
    rw [Part.expression, meaning_of_path hrule hmembers]
    rfl
  | @ternary cursor afterTest opened afterThen closed stop test thenNode _ hcondition hquestion
      haccepted hcolon _ ih =>
    obtain ⟨elseNode, helse, rfl⟩ := ih hblock
    have htail : Reads .spaced (.rule .ternaryTail) afterTest.skipGap
        (some ([Rule.ternaryTail.nodeOf afterTest.skipGap stop [thenNode, elseNode]], stop)) :=
      (hquestion.followed (haccepted.followed (hcolon.followed helse))).enclosed .ternaryTail
    refine ⟨_, (hcondition.followed htail.optSome).enclosed .expression, ?_⟩
    exact expression_of_ternary

/-- Where a guard ends, no gap comes next. -/
theorem settled (hguard : Guard cursor stop value) : stop.skipGap = stop := by
  induction hguard with
  | path => exact Cursor.skipGap_skipGap _
  | ternary _ _ _ _ _ ih => exact ih

section Statements

variable {start afterWords : Cursor} {words : List Node} {block : Node}
  (hguard : Guard afterWords.skipGap stop value)
  (hfollows : Reads .spaced (.rule .block) stop (some ([block], last)))
include hguard hfollows

/-- A further clause takes the guard and its block. -/
theorem reads_elseif
    (hkeyword : Reads .spaced (.alt (.rule .kwElseif) (.seq (.rule .kwElse) (.rule .kwIf))) start
      (some (words, afterWords))) :
    ∃ clause, Reads .spaced (.rule .elseifClause) start (some ([clause], last)) ∧
      clause.part.meaning = do
        let condition ← value
        return .branch ⟨condition, ← block.part.block, .between start.position last.position⟩ := by
  obtain ⟨condition, hcondition, rfl⟩ := hguard.reads hfollows
  rw [← hguard.settled] at hfollows
  refine ⟨_, (hkeyword.followed (hcondition.followed hfollows)).enclosed .elseifClause,
    meaning_of_elseif ?_⟩
  rcases hkeyword.alt_inv with hword | ⟨-, hwords⟩
  · obtain ⟨_, -, rfl⟩ := hword.rule_inv (by decide)
    exact .inl rfl
  · obtain ⟨_, _, _, hfirst, hsecond, rfl⟩ := hwords.seq_inv
    obtain ⟨_, -, rfl⟩ := hfirst.rule_inv (by decide)
    obtain ⟨_, -, rfl⟩ := hsecond.rule_inv (by decide)
    exact .inr rfl

/-- A condition takes the guard and its block first. -/
theorem reads_if (hkeyword : Reads .spaced (.rule .kwIf) start (some (words, afterWords))) :
    ∃ statement final, Reads .spaced (.rule .ifStatement) start (some ([statement], final)) ∧
      Gives statement.part.meaning fun meaning => ∃ branch branches otherwise span,
        meaning = .statementForm (.conditional (branch :: branches) otherwise span) ∧
          value = .ok branch.condition ∧ block.part.block = .ok branch.body := by
  obtain ⟨condition, hcondition, rfl⟩ := hguard.reads hfollows
  rw [← hguard.settled] at hfollows
  obtain ⟨clauses, final, hclauses⟩ := Reads.exists_clauses last.skipGap
  obtain ⟨_, -, rfl⟩ := hkeyword.rule_inv (by decide)
  exact ⟨_, final,
    (hkeyword.followed (hcondition.followed (hfollows.followed hclauses))).enclosed .ifStatement,
    gives_if⟩

/-- A loop goes over the guard and runs its block. -/
theorem reads_for {afterWord afterItem afterSecond : Cursor} {first item second : List Node}
    (hkeyword : Reads .spaced (.rule .kwFor) start (some (first, afterWord)))
    (hname : Reads .spaced (.rule .identifier) afterWord.skipGap (some (item, afterItem)))
    (hanother : Reads .spaced (.opt (.seq (.text ",") (.rule .identifier))) afterItem.skipGap
      (some (second, afterSecond)))
    (hinWord : Reads .spaced (.rule .kwIn) afterSecond.skipGap (some (words, afterWords))) :
    ∃ statement, Reads .spaced (.rule .forStatement) start (some ([statement], last)) ∧
      Gives statement.part.meaning fun meaning => ∃ index item iterable body span,
        meaning = .statementForm (.forEach index item iterable body span) ∧
          value = .ok iterable ∧ block.part.block = .ok body := by
  obtain ⟨condition, hcondition, rfl⟩ := hguard.reads hfollows
  rw [← hguard.settled] at hfollows
  have hall := hkeyword.followed (hname.followed (hanother.followed (hinWord.followed
    (hcondition.followed hfollows))))
  obtain ⟨_, -, rfl⟩ := hkeyword.rule_inv (by decide)
  obtain ⟨_, -, rfl⟩ := hname.rule_inv (by decide)
  obtain ⟨_, -, rfl⟩ := hinWord.rule_inv (by decide)
  refine ⟨_, hall.enclosed .forStatement, gives_for ?_⟩
  rcases hanother.opt_inv with hsecond | ⟨-, rfl, -⟩
  · obtain ⟨_, _, _, hcomma, hname', rfl⟩ := hsecond.seq_inv
    obtain ⟨-, rfl⟩ := hcomma.word_inv
    obtain ⟨_, -, rfl⟩ := hname'.rule_inv (by decide)
    exact .inr rfl
  · exact .inl rfl

end Statements

end Guard

end Kestrel
