import Kestrel.Proofs.Grammar.Identifier
import Kestrel.Proofs.Grammar.Opening
import Kestrel.Proofs.Grammar.Statement

/-!
# Paths in front of blocks

A path of names in front of a brace could be the target of a struct literal. It is none where the
brace opens a block: a literal has a field there, a name with a colon after it, and no block starts
with one, since every statement that starts with this name ends in front of the colon and none
starts with a colon. So the path is read as an operand that consists of members, and the expression
ends in front of the block.
-/

namespace Kestrel

/-- The rules that may take a mark first, for the marks that matter here. -/
def Rule.opensAt : Char → Rule → Bool
  | ':', rule => rule ∈ [stringContent, sliceBounds]
  | '\x7b', rule =>
    rule ∈ [stringContent, block, dictionary, postfixExpr, binaryExpr, expression, assignment,
      expressionStatement, statement, program, singleExpression, sliceStart, sliceEnd, sliceBounds]
  | _, _ => true

/-- The tables agree with the definitions of the rules. -/
theorem Rule.mayTake_body {mark : Char} (hknown : mark ∈ [':', '\x7b']) (rule : Rule)
    (hshut : rule.opensAt mark = false) :
    rule.definition.body.mayTake (opensAt mark) (some mark) = false := by
  simp only [List.mem_cons, List.not_mem_nil, or_false] at hknown
  rcases hknown with rfl | rfl <;> cases rule <;> revert hshut <;> decide +kernel

/-- No gap comes where a name starts. -/
theorem Cursor.skipGap_of_isNameStart {cursor : Cursor}
    (hstart : cursor.rest.head?.any isNameStart) : cursor.skipGap = cursor := by
  cases hhead : cursor.rest.head? with
  | none =>
    rw [hhead] at hstart
    cases hstart
  | some c =>
    rw [hhead, Option.any_some] at hstart
    refine skipGap_of_head hhead (Bool.eq_false_iff.mpr fun hblank => ?_) ?_
    · simp only [isBlank, Bool.or_eq_true, beq_iff_eq] at hblank
      rcases hblank with ((rfl | rfl) | rfl) | rfl <;> contradiction
    · rintro rfl
      contradiction

namespace Reads

variable {mode : Mode} {first second pattern : Pattern}
  {cursor next last : Cursor} {nodes more : List Node} {mark : Char}

/-- Two patterns that match one after the other. -/
theorem followed (hfront : Reads mode first cursor (some (nodes, next)))
    (hback : Reads mode second (Pattern.between mode next) (some (more, last))) :
    Reads mode (.seq first second) cursor (some (nodes ++ more, last)) :=
  hfront.seq hback rfl

/-- A rule whose inside matches leaves a node. -/
theorem enclosed (name : Rule)
    (hreads : Reads name.definition.mode name.definition.body cursor (some (nodes, next))) :
    Reads .spaced (.rule name) cursor (some ([name.nodeOf cursor next nodes], next)) :=
  .node (by decide) hreads rfl

/-- A round and what the repetition goes on with are a repetition, which ends in the same gap. -/
theorem many_cons (hround : Reads mode pattern cursor (some (nodes, next)))
    (hothers : Reads mode (.many pattern) (Pattern.between mode next) (some (more, last))) :
    ∃ last', Reads mode (.many pattern) cursor (some (nodes ++ more, last')) ∧
      Pattern.between mode last' = Pattern.between mode last := by
  cases hothers with
  | manyNone hrefused =>
    rw [List.append_nil]
    exact ⟨next, hround.manyStop hrefused, (Pattern.between_between mode next).symm⟩
  | manyStop hagain hrefused =>
    exact ⟨last, hround.manyNext hagain (hagain.manyStop hrefused), rfl⟩
  | manyNext hagain hthird hothers =>
    exact ⟨last, hround.manyNext hagain (hagain.manyNext hthird hothers), rfl⟩

/-- A pattern that takes something is refused at a mark that it may not take first. -/
theorem refused_at_mark (hknown : mark ∈ [':', '\x7b']) (hhead : cursor.rest.head? = some mark)
    (hadvances : pattern.advances) (hrepeats : pattern.descends 10 true)
    (hshut : pattern.mayTake (Rule.opensAt mark) (some mark) = false) :
    Reads mode pattern cursor none := by
  refine Pattern.refused_of_no_match hrepeats fun nodes next hreads => ?_
  have hsettled : cursor.skipGap = cursor := by
    simp only [List.mem_cons, List.not_mem_nil, or_false] at hknown
    rcases hknown with rfl | rfl <;>
      exact Cursor.skipGap_of_head hhead (by decide) (by decide)
  have hmatch := Pattern.matches_of_reads hrepeats hreads
  exact hmatch.next_ne hadvances
    (hmatch.next_eq_of_mayTake (Rule.mayTake_body hknown) hsettled hhead hshut)

section Operands

variable {name : List Node} {middle : Cursor}

/-- Where an identifier stands that starts no struct literal, it is the primary expression. -/
theorem primary_of_identifier
    (hidentifier : Reads .spaced (.rule .identifier) cursor (some (name, middle)))
    (hnoStruct : ∀ found, ¬Reads .spaced (.rule .structLiteral) cursor (some found)) :
    Reads .spaced .primaryExpr cursor (some (name, middle)) := by
  obtain ⟨hreserved, hstart⟩ := hidentifier.name_of_identifier
  obtain ⟨verdict, hreads'⟩ : ∃ verdict, Reads .spaced .primaryExpr cursor verdict :=
    Pattern.exists_reads (by decide) .spaced cursor
  cases verdict with
  | none =>
    have hrefused := hreads'.oneOf_refused (.rule .identifier) (by decide)
    cases hrefused.unique hidentifier
  | some found =>
    cases hreads'.startsPrimary with
    | mark hhead hnoName =>
      rw [hhead, Option.any_some, hnoName] at hstart
      exact absurd hstart (by decide)
    | literal hname =>
      have hliteral : ∀ word ∈ ["true", "false", "nothing"], word ∈ reservedWords := by
        decide
      exact absurd (hliteral _ hname) hreserved
    | function hreads =>
      rw [hreads.name_of_functionLiteral] at hreserved
      exact absurd (by decide) hreserved
    | struct hreads => exact absurd hreads (hnoStruct _)
    | identifier hreads =>
      obtain rfl : found = (name, middle) := Option.some.inj (hreads.unique hidentifier)
      exact hreads'

/-- An operand that no operator follows is the whole expression. -/
theorem expression_of_operand {operand : List Node}
    (hsettled : cursor.skipGap = cursor)
    (hreads : Reads .spaced (.rule .postfixExpr) cursor (some (operand, middle)))
    (hnoInfix : Reads .spaced .infixOp middle.skipGap none)
    (hnoTail : Reads .spaced (.rule .ternaryTail) middle.skipGap none) :
    Reads .spaced (.rule .expression) cursor
      (some ([Rule.expression.nodeOf cursor middle.skipGap
        [Rule.binaryExpr.nodeOf cursor middle.skipGap operand]], middle.skipGap)) := by
  have hprefixes : Reads .spaced (.many .prefixOp) cursor (some ([], cursor)) :=
    .manyNone (Pattern.refused_of_no_match (by decide) fun _ _ => hreads.not_prefixOp)
  have hothers : Reads .spaced
      (.many (.inOrder [.infixOp, .many .prefixOp, .rule .postfixExpr])) middle.skipGap
      (some ([], middle.skipGap)) :=
    .manyNone (.seqRefused hnoInfix)
  have hrow := hreads.followed hothers
  rw [List.append_nil, ← hsettled] at hrow
  have hbinary : Reads .spaced (.rule .binaryExpr) cursor
      (some ([Rule.binaryExpr.nodeOf cursor middle.skipGap operand], middle.skipGap)) :=
    (hprefixes.followed hrow).enclosed .binaryExpr
  have htail : Reads .spaced (.opt (.rule .ternaryTail)) middle.skipGap.skipGap
      (some ([], middle.skipGap)) := by
    rw [Cursor.skipGap_skipGap]
    exact .optNone hnoTail
  exact (hbinary.followed htail).enclosed .expression

end Operands

end Reads

/-- A member access made of a name. -/
def Node.IsMember (member name : Node) : Prop :=
  ∃ start, member = ⟨.memberAccess, start, name.stop, "", [name]⟩ ∧ name.rule = .identifier

namespace Reads

variable {cursor next last middle : Cursor} {nodes names body : List Node} {name : Node}

/-- Where a dot with a name comes next, it is the next member of an operand. -/
theorem member_of_name
    (hreads : Reads .spaced (.seq (.text ".") (.rule .identifier)) cursor (some (nodes, next))) :
    ∃ member name, nodes = [name] ∧ member.IsMember name ∧
      Reads .spaced .postfixOp cursor (some ([member], next)) := by
  have hmember : Reads .spaced (.rule .memberAccess) cursor
      (some ([Rule.memberAccess.nodeOf cursor next nodes], next)) := .node (by decide) hreads rfl
  obtain ⟨_, _, _, hdot, hname, rfl⟩ := hreads.seq_inv
  obtain ⟨_, -, rfl⟩ := hname.rule_inv (by decide)
  have hcall : Reads .spaced (.rule .callArguments) cursor none := by
    refine Rule.refused_of_no_match fun nodes next hreads' => ?_
    obtain ⟨_, hbody, -⟩ := hreads'.rule_inv (by decide)
    obtain ⟨_, _, _, hopening, -, -⟩ := hbody.seq_inv
    exact absurd (hdot.head_of_mark.symm.trans hopening.head_of_mark) (by decide)
  obtain ⟨-, rfl⟩ := hdot.word_inv
  exact ⟨_, _, rfl, ⟨_, rfl, rfl⟩, hcall.altSecond hmember.altFirst⟩

/-- The names of a path after the first one are the members of an operand, if no operand goes on
after them. -/
theorem members_of_names (hsettled : cursor.skipGap = cursor)
    (hreads : Reads .spaced (.many (.seq (.text ".") (.rule .identifier))) cursor
      (some (names, last)))
    (hstops : Reads .spaced .postfixOp last.skipGap none) :
    ∃ members, Reads .spaced (.many .postfixOp) cursor (some (members, last)) ∧
      List.Forall₂ Node.IsMember members names := by
  -- by induction on the reading, of which only the cases of a repetition are left
  generalize hmode : Mode.spaced = mode,
    hpattern : Pattern.many (.seq (.text ".") (.rule .identifier)) = pattern,
    hverdict : some (names, last) = verdict at hreads
  induction hreads generalizing names last with
  | manyNone =>
    cases hmode
    cases hverdict
    rw [hsettled] at hstops
    exact ⟨[], .manyNone hstops, .nil⟩
  | manyStop hround =>
    cases hmode
    cases hpattern
    cases hverdict
    obtain ⟨member, name, rfl, hmember, hround'⟩ := hround.member_of_name
    exact ⟨[member], hround'.manyStop hstops, .cons hmember .nil⟩
  | manyNext hround hagain hothers ihRound ihAgain ihOthers =>
    cases hmode
    cases hpattern
    cases hverdict
    obtain ⟨member, name, rfl, hmember, hround'⟩ := hround.member_of_name
    obtain ⟨_, _, -, -, hagain'⟩ := hagain.member_of_name
    obtain ⟨members, hothers', hmembers⟩ :=
      ihOthers (Cursor.skipGap_skipGap _) hstops rfl rfl rfl
    exact ⟨member :: members, hround'.manyNext hagain' hothers', .cons hmember hmembers⟩
  | _ => cases hpattern

/-- A path starts with an identifier, and goes on with names after dots. -/
theorem structPath_inv
    (hreads : Reads .spaced (.rule .structPath) cursor (some (nodes, last))) :
    ∃ root names middle, nodes = [Rule.structPath.nodeOf cursor last (root :: names)] ∧
      Reads .spaced (.rule .identifier) cursor (some ([root], middle)) ∧
      Reads .spaced (.many (.seq (.text ".") (.rule .identifier))) middle.skipGap
        (some (names, last)) := by
  obtain ⟨_, hbody, rfl⟩ := hreads.rule_inv (by decide)
  obtain ⟨_, middle, names, hroot, hnames, rfl⟩ := hbody.seq_inv
  obtain ⟨_, -, rfl⟩ := hroot.rule_inv (by decide)
  exact ⟨_, names, middle, rfl, hroot, hnames⟩

/-- A path that starts no struct literal and after which no operand goes on is an operand. -/
theorem operand_of_path
    (hpath : Reads .spaced (.rule .structPath) cursor (some (nodes, last)))
    (hnoStruct : ∀ found, ¬Reads .spaced (.rule .structLiteral) cursor (some found))
    (hstops : Reads .spaced .postfixOp last.skipGap none) :
    ∃ root names members, nodes = [Rule.structPath.nodeOf cursor last (root :: names)] ∧
      root.rule = .identifier ∧ List.Forall₂ Node.IsMember members names ∧
      Reads .spaced (.rule .postfixExpr) cursor
        (some ([Rule.postfixExpr.nodeOf cursor last (root :: members)], last)) := by
  obtain ⟨root, names, middle, hnodes, hroot, hnames⟩ := hpath.structPath_inv
  obtain ⟨members, hmembers, hsame⟩ :=
    hnames.members_of_names (Cursor.skipGap_skipGap middle) hstops
  obtain ⟨_, -, hrule⟩ := hroot.rule_inv (by decide)
  refine ⟨root, names, members, hnodes, ?_, hsame, ?_⟩
  · cases hrule
    rfl
  · exact ((hroot.primary_of_identifier hnoStruct).followed hmembers).enclosed .postfixExpr

/-- No operand goes on at a colon or a brace. -/
theorem postfixOp_refused {mark : Char} (hknown : mark ∈ [':', '\x7b'])
    (hhead : cursor.rest.head? = some mark) : Reads .spaced .postfixOp cursor none := by
  simp only [List.mem_cons, List.not_mem_nil, or_false] at hknown
  rcases hknown with rfl | rfl <;>
    exact refused_at_mark (by decide) hhead (by decide) (by decide) (by decide)

/-- In front of a colon or a brace an operand is all there is of an expression. -/
theorem expression_before_mark {mark : Char} {operand : List Node}
    (hknown : mark ∈ [':', '\x7b']) (hsettled : cursor.skipGap = cursor)
    (hreads : Reads .spaced (.rule .postfixExpr) cursor (some (operand, middle)))
    (hhead : middle.skipGap.rest.head? = some mark) :
    Reads .spaced (.rule .expression) cursor
      (some ([Rule.expression.nodeOf cursor middle.skipGap
        [Rule.binaryExpr.nodeOf cursor middle.skipGap operand]], middle.skipGap)) := by
  simp only [List.mem_cons, List.not_mem_nil, or_false] at hknown
  refine expression_of_operand hsettled hreads ?_ ?_ <;>
    rcases hknown with rfl | rfl <;>
    exact refused_at_mark (by decide) hhead (by decide) (by decide) (by decide)

section Colon

variable (hidentifier : Reads .spaced (.rule .identifier) cursor (some (names, middle)))
  (hcolon : middle.skipGap.rest.head? = some ':')
include hidentifier hcolon

/-- An operand that starts with a name in front of a colon is the name. -/
theorem operand_before_colon :
    Reads .spaced (.rule .postfixExpr) cursor
      (some ([Rule.postfixExpr.nodeOf cursor middle.skipGap names], middle.skipGap)) := by
  have hnoStruct (found : List Node × Cursor) :
      ¬Reads .spaced (.rule .structLiteral) cursor (some found) := by
    intro hstruct
    obtain ⟨_, _, hname, hhead⟩ := hstruct.structLiteral_inv
    cases hname.unique hidentifier
    rw [hcolon] at hhead
    exact absurd hhead (by decide)
  have hstops := Reads.postfixOp_refused (by decide) hcolon
  have hrow := (hidentifier.primary_of_identifier hnoStruct).followed (.manyNone hstops)
  rw [List.append_nil] at hrow
  exact hrow.enclosed .postfixExpr

/-- A statement that starts with a name in front of a colon ends there. -/
theorem last_of_statement (hsettled : cursor.skipGap = cursor)
    (hreads : Reads .spaced (.rule .statement) cursor (some (nodes, last))) :
    last = middle.skipGap := by
  obtain ⟨hfree, hstart⟩ := hidentifier.name_of_identifier
  obtain ⟨_, hbody, -⟩ := hreads.rule_inv (by decide)
  obtain ⟨_, next, _, hany, hsemicolon, -⟩ := hbody.seq_inv
  have hnext : next = middle.skipGap := by
    rcases hany.anyStatement_inv with ⟨rule, hother, hform⟩ | ⟨_, hexpression⟩
    · -- no other statement starts with a name in front of a colon
      cases hform.startsStatement hother with
      | keyword _ hreserved _ hname =>
        rw [hname] at hfree
        exact absurd hreserved hfree
      | function hword =>
        rw [name_of_rule rfl (by decide) hword] at hfree
        exact absurd (by decide) hfree
      | method hname harrow =>
        cases hname.unique hidentifier
        have hrest : middle.skipGap.rest = '-' :: '>' :: _ := harrow.rest_of_text
        rw [hrest] at hcolon
        cases hcolon
      | assignment htarget hoperator =>
        cases htarget.unique (operand_before_colon hidentifier hcolon)
        rw [Cursor.skipGap_skipGap] at hoperator
        cases hoperator.unique
          (refused_at_mark (by decide) hcolon (by decide) (by decide) (by decide))
    · have hcolon' : middle.skipGap.skipGap.rest.head? = some ':' := by
        rwa [Cursor.skipGap_skipGap]
      have hreads' := expression_before_mark (by decide) hsettled
        (operand_before_colon hidentifier hcolon) hcolon'
      rw [Cursor.skipGap_skipGap] at hreads'
      cases hreads'.unique hexpression
      rfl
  subst hnext
  change Reads .spaced _ middle.skipGap.skipGap _ at hsemicolon
  rw [Cursor.skipGap_skipGap] at hsemicolon
  rcases hsemicolon.opt_inv with hword' | ⟨-, -, hlast⟩
  · exact absurd (hcolon.symm.trans hword'.head_of_mark) (by decide)
  · exact hlast

end Colon

/-- No block starts with a name in front of a colon. -/
theorem no_field_in_block {opened : Cursor}
    (hblock : Reads .spaced (.rule .block) cursor (some (body, last)))
    (hbrace : cursor.word? ['\x7b'] = some opened)
    (hidentifier : Reads .spaced (.rule .identifier) opened.skipGap (some (names, middle))) :
    middle.skipGap.rest.head? ≠ some ':' := by
  intro hcolon
  obtain ⟨_, hbody, -⟩ := hblock.rule_inv (by decide)
  obtain ⟨_, first, _, hopening, hothers, -⟩ := hbody.seq_inv
  obtain rfl : opened = first := Option.some.inj (hbrace.symm.trans hopening.word_inv.1)
  obtain ⟨_, next, _, hstatements, hclosing, -⟩ := hothers.seq_inv
  have hstart := hidentifier.name_of_identifier.2
  have hsettled : opened.skipGap.skipGap = opened.skipGap := Cursor.skipGap_skipGap _
  have hclosing : next.skipGap.rest.head? = some '\x7d' := hclosing.head_of_mark
  have hafter : middle.skipGap.skipGap = middle.skipGap := Cursor.skipGap_skipGap _
  change Reads .spaced (.many (.rule .statement)) opened.skipGap _ at hstatements
  -- the block is empty, or its first statement ends in front of the colon and is or is not the last
  cases hstatements with
  | manyNone =>
    rw [hsettled] at hclosing
    rw [hclosing] at hstart
    exact absurd hstart (by decide)
  | manyStop hround =>
    obtain rfl := last_of_statement hidentifier hcolon hsettled hround
    rw [hafter, hcolon] at hclosing
    exact absurd hclosing (by decide)
  | manyNext hround hagain =>
    obtain rfl := last_of_statement hidentifier hcolon hsettled hround
    rw [Pattern.between, hafter] at hagain
    cases hagain.unique (refused_at_mark (by decide) hcolon (by decide) (by decide) (by decide))

/-- A block starts with a brace. -/
theorem brace_of_block (hblock : Reads .spaced (.rule .block) cursor (some (body, last))) :
    cursor.rest.head? = some '\x7b' := by
  obtain ⟨_, hbody, -⟩ := hblock.rule_inv (by decide)
  obtain ⟨_, _, _, hopening, -, -⟩ := hbody.seq_inv
  exact hopening.head_of_mark

section Block

variable (hpath : Reads .spaced (.rule .structPath) cursor (some (nodes, middle)))
  (hblock : Reads .spaced (.rule .block) middle.skipGap (some (body, last)))
include hpath hblock


/-- A path in front of a block starts no struct literal. -/
theorem no_structLiteral (found : List Node × Cursor) :
    ¬Reads .spaced (.rule .structLiteral) cursor (some found) := by
  intro hstruct
  obtain ⟨_, hbody, -⟩ := hstruct.rule_inv (by decide)
  obtain ⟨_, _, _, hpath', hothers, -⟩ := hbody.seq_inv
  cases hpath'.unique hpath
  obtain ⟨_, opened, _, hopening, hfields, -⟩ := hothers.seq_inv
  obtain ⟨_, _, _, hfields, -, -⟩ := hfields.seq_inv
  obtain ⟨_, _, _, hfield, -, -⟩ := hfields.seq_inv
  obtain ⟨_, hfield, -⟩ := hfield.rule_inv (by decide)
  obtain ⟨_, middle, _, hname, hcolon, -⟩ := hfield.seq_inv
  obtain ⟨_, _, _, hcolon, -, -⟩ := hcolon.seq_inv
  exact no_field_in_block hblock hopening.word_inv.1 hname hcolon.head_of_mark

/-- A path in front of a block is all there is of an expression. -/
theorem expression_before_block :
    ∃ root names members, nodes = [Rule.structPath.nodeOf cursor middle (root :: names)] ∧
      root.rule = .identifier ∧ List.Forall₂ Node.IsMember members names ∧
      Reads .spaced (.rule .expression) cursor
        (some ([Rule.expression.nodeOf cursor middle.skipGap
          [Rule.binaryExpr.nodeOf cursor middle.skipGap
            [Rule.postfixExpr.nodeOf cursor middle (root :: members)]]], middle.skipGap)) := by
  have hbrace := hblock.brace_of_block
  obtain ⟨root, names, members, hnodes, hroot, hmembers, hoperand⟩ :=
    hpath.operand_of_path (no_structLiteral hpath hblock) (postfixOp_refused (by decide) hbrace)
  refine ⟨root, names, members, hnodes, hroot, hmembers, ?_⟩
  have hsettled : cursor.skipGap = cursor := by
    obtain ⟨_, _, _, -, hidentifier, -⟩ := hpath.structPath_inv
    have hstart := hidentifier.name_of_identifier.2
    exact Cursor.skipGap_of_isNameStart hstart
  exact expression_before_mark (by decide) hsettled hoperand hbrace

end Block

end Reads

end Kestrel
