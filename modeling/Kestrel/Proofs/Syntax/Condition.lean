import Kestrel.Proofs.Grammar.Moved
import Kestrel.Proofs.Syntax.Guard

/-!
# Conditions that are paths

A program that consists of a keyword, a path of names and a block is a statement whose condition is
the path and whose body is the block, whatever the block may be.
-/

namespace Kestrel

/-- The text of the names after the first one of a path. -/
def memberText : List String → String
  | [] => ""
  | name :: others => "." ++ name ++ memberText others

/-- The text of a path. -/
def pathText (root : String) (members : List String) : String := root ++ memberText members

/-- The names after the first one of a path whose text starts at a place. -/
def membersAt (position : Position) : List String → List Identifier
  | [] => []
  | name :: others =>
    let start := position.moved 1 0
    let stop := start.moved name.utf8ByteSize 0
    ⟨name, .between start stop⟩ :: membersAt stop others

/-- The chain that a path stands for whose text starts at a place. -/
def chainAt (position : Position) (root : String) (members : List String) : Expression :=
  let stop := position.moved root.utf8ByteSize 0
  memberChain ⟨root, .between position stop⟩ (membersAt stop members)

section Positions

variable {word : String}

/-- No word goes on in the next line. -/
theorem Position.foldl_after_word (hmade : ∀ c ∈ word.toList, isNameChar c) (position : Position) :
    word.toList.foldl Position.after position = position.moved word.utf8ByteSize 0 := by
  have hcount : word.toList.count '\n' = 0 :=
    List.count_eq_zero.mpr fun hmem => absurd (hmade _ hmem) (by decide)
  rw [Position.foldl_after, hcount, String.ofList_toList]
  rfl

/-- Whatever comes after it, a name starts as names do. -/
theorem IsName.start_append (hname : IsName word) (rest : List Char) :
    (word.toList ++ rest).head?.any isNameStart := by
  have hstart := hname.start
  cases hword : word.toList with
  | nil =>
    rw [hword] at hstart
    cases hstart
  | cons c others => rwa [hword] at hstart

/-- What a path with more names ends with comes after what it ends with up to there. -/
theorem Position.moved_moved (position : Position) (bytes more : Nat) :
    (position.moved bytes 0).moved more 0 = position.moved (bytes + more) 0 := by
  simp [moved, Nat.add_assoc]

end Positions

section Reading

variable {mode : Mode} {cursor next last : Cursor} {rule : Rule} {word : String}
  {body : Pattern} {nodes more : List Node} {rest tail letters : List Char} {position : Position}

/-- A gap may start with a space. -/
theorem Cursor.skipGap_blank (tail : List Char) (position : Position) :
    Cursor.skipGap ⟨' ' :: tail, position⟩ = Cursor.skipGap ⟨tail, position.after ' '⟩ :=
  GapState.skip_blank rfl

/-- A blank is all of a gap that goes on with neither a blank nor a comment. -/
theorem Cursor.skipGap_space {c : Char} (hhead : tail.head? = some c) (hnoBlank : isBlank c = false)
    (hnoSlash : c ≠ '/') :
    Cursor.skipGap ⟨' ' :: tail, position⟩ = ⟨tail, position.after ' '⟩ := by
  rw [Cursor.skipGap_blank]
  exact Cursor.skipGap_of_head hhead hnoBlank hnoSlash

/-- In front of a name a blank is all of a gap. -/
theorem Cursor.skipGap_before_name (hstart : tail.head?.any isNameStart) (position : Position) :
    Cursor.skipGap ⟨' ' :: tail, position⟩ = ⟨tail, position.after ' '⟩ := by
  rw [Cursor.skipGap_blank]
  exact Cursor.skipGap_of_isNameStart hstart

/-- A keyword is read in front of a blank, which is all of the gap if a name comes next. -/
theorem Reads.keyword (hdefinition : rule.definition = ⟨.token, .keyword word⟩)
    (hreserved : word ∈ reservedWords) (htext : cursor.rest = word.toList ++ ' ' :: tail)
    (hstart : tail.head?.any isNameStart) :
    ∃ node next, Reads .spaced (.rule rule) cursor (some ([node], next)) ∧
      next.skipGap = ⟨tail, cursor.position.moved (word.utf8ByteSize + 1) 0⟩ := by
  have hmoved := Position.foldl_after_word (isNameChar_of_mem_reserved word hreserved)
    cursor.position
  generalize hnext : word.toList.foldl Position.after cursor.position = position at hmoved
  have hword : Reads .token (.text word) cursor (some ([], ⟨' ' :: tail, position⟩)) :=
    .word (by rw [Cursor.word?_of_rest htext, hnext]; rfl)
  have hends : Reads .token (.absent .nameChar) ⟨' ' :: tail, position⟩
      (some ([], ⟨' ' :: tail, position⟩)) := by
    obtain ⟨verdict, hchar⟩ : ∃ verdict, Reads .token .nameChar ⟨' ' :: tail, position⟩ verdict :=
      Pattern.exists_reads (by decide) .token _
    refine .absent hchar ?_
    rw [hchar.nameChar_isSome]
    rfl
  have hbody : Reads rule.definition.mode rule.definition.body cursor
      (some ([], ⟨' ' :: tail, position⟩)) := by
    rw [hdefinition]
    exact hword.followed hends
  refine ⟨_, _, hbody.enclosed rule, ?_⟩
  rw [Cursor.skipGap_before_name hstart, hmoved, ← Position.moved_moved]
  rfl

/-- A name is read as an identifier where something else comes next. -/
theorem Reads.name (hname : IsName word) (htext : cursor.rest = word.toList ++ rest)
    (hends : ∀ c ∈ rest.head?, isNameChar c = false) :
    ∃ node, Reads .spaced (.rule .identifier) cursor
        (some ([node], ⟨rest, cursor.position.moved word.utf8ByteSize 0⟩)) ∧
      node.rule = .identifier ∧ node.asIdentifier =
        ⟨word, .between cursor.position (cursor.position.moved word.utf8ByteSize 0)⟩ := by
  have hname' := Cursor.name_eq_of_rest htext hname.made hends
  have hafter := Cursor.afterName_of_rest htext hname.made hends
  rw [Position.foldl_after_word hname.made] at hafter
  have hreads := Reads.reads_identifier (hname'.symm ▸ hname)
  have htext' := @Reads.text_of_identifier cursor
  rw [hafter] at hreads htext'
  rw [hname'] at htext'
  exact ⟨_, hreads, rfl, by rw [Node.asIdentifier, htext']; rfl⟩

/-- A dot and a name are read as a member where something else comes next. -/
theorem Reads.dotted (hname : IsName word) (hends : ∀ c ∈ rest.head?, isNameChar c = false)
    (position : Position) :
    ∃ node, Reads .spaced (.seq (.text ".") (.rule .identifier))
        ⟨'.' :: (word.toList ++ rest), position⟩
        (some ([node], ⟨rest, (position.moved 1 0).moved word.utf8ByteSize 0⟩)) ∧
      node.rule = .identifier ∧ node.asIdentifier = ⟨word, .between (position.moved 1 0)
        ((position.moved 1 0).moved word.utf8ByteSize 0)⟩ := by
  obtain ⟨node, hidentifier, hrule, hnode⟩ :=
    @Reads.name ⟨word.toList ++ rest, position.moved 1 0⟩ word rest hname rfl hends
  have hinside : Cursor.skipGap ⟨word.toList ++ rest, position.moved 1 0⟩ =
      ⟨word.toList ++ rest, position.moved 1 0⟩ :=
    Cursor.skipGap_of_isNameStart (hname.start_append rest)
  have hdot : Reads .spaced (.text ".") ⟨'.' :: (word.toList ++ rest), position⟩
      (some ([], ⟨word.toList ++ rest, position.moved 1 0⟩)) := .word rfl
  refine ⟨node, hdot.followed ?_, hrule, hnode⟩
  rw [Pattern.between, hinside]
  exact hidentifier

/-- No name goes on after a part of a path. -/
theorem isNameChar_after_name (members : List String) (tail : List Char) :
    ∀ c ∈ ((memberText members).toList ++ ' ' :: tail).head?, isNameChar c = false := by
  cases members <;> simp [memberText] <;> decide

/-- The names after the first one of a path are read up to the brace that comes after them. -/
theorem Reads.members {members : List String} (hnames : ∀ name ∈ members, IsName name)
    (hbrace : tail.head? = some '\x7b') (position : Position) :
    ∃ nodes last, Reads .spaced (.many (.seq (.text ".") (.rule .identifier)))
        (Cursor.skipGap ⟨(memberText members).toList ++ ' ' :: tail, position⟩)
        (some (nodes, last)) ∧
      last.skipGap = ⟨tail, (position.moved (memberText members).utf8ByteSize 0).after ' '⟩ ∧
      (∀ node ∈ nodes, node.rule = .identifier) ∧
      nodes.map Node.asIdentifier = membersAt position members := by
  induction members generalizing position with
  | nil =>
    have hskip : Cursor.skipGap ⟨' ' :: tail, position⟩ = ⟨tail, position.after ' '⟩ :=
      Cursor.skipGap_space hbrace (by decide) (by decide)
    have hdot : Reads .spaced (.seq (.text ".") (.rule .identifier)) ⟨tail, position.after ' '⟩
        none := by
      refine Pattern.refused_of_no_match (by decide) fun nodes next hreads => ?_
      obtain ⟨_, _, _, hdot, -, -⟩ := hreads.seq_inv
      exact absurd (hbrace.symm.trans hdot.head_of_mark) (by decide)
    refine ⟨[], ⟨tail, position.after ' '⟩, ?_, ?_, by simp, rfl⟩
    · change Reads .spaced _ (Cursor.skipGap ⟨' ' :: tail, position⟩) _
      rw [hskip]
      exact .manyNone hdot
    · rw [← hskip, Cursor.skipGap_skipGap, hskip]
      rfl
  | cons name members ih =>
    obtain ⟨hname, hothers⟩ := List.forall_mem_cons.mp hnames
    have htext : (memberText (name :: members)).toList ++ ' ' :: tail =
        '.' :: (name.toList ++ ((memberText members).toList ++ ' ' :: tail)) := by
      simp [memberText]
    have hsettled : Cursor.skipGap ⟨(memberText (name :: members)).toList ++ ' ' :: tail,
        position⟩ = ⟨(memberText (name :: members)).toList ++ ' ' :: tail, position⟩ :=
      Cursor.skipGap_of_head (by rw [htext]; rfl) (by decide) (by decide)
    obtain ⟨node, hround, hrule, hnode⟩ :=
      Reads.dotted hname (isNameChar_after_name members tail) position
    obtain ⟨nodes, last, hmany, hlast, hrules, hsame⟩ :=
      ih hothers ((position.moved 1 0).moved name.utf8ByteSize 0)
    obtain ⟨last', hall, hlast'⟩ := hround.many_cons hmany
    rw [← htext, ← hsettled] at hall
    refine ⟨node :: nodes, last', hall, ?_, ?_, ?_⟩
    · change last'.skipGap = last.skipGap at hlast'
      rw [hlast', hlast, memberText, String.utf8ByteSize_append, String.utf8ByteSize_append,
        ← Position.moved_moved, ← Position.moved_moved]
      rfl
    · exact List.forall_mem_cons.mpr ⟨hrule, hrules⟩
    · rw [List.map_cons, hnode, hsame]
      rfl

/-- A path is read up to the brace that comes after it. -/
theorem Reads.path {root : String} {members : List String} (hname : IsName root)
    (hnames : ∀ name ∈ members, IsName name) (hbrace : tail.head? = some '\x7b')
    (position : Position) :
    ∃ node next, Reads .spaced (.rule .structPath)
        ⟨(pathText root members).toList ++ ' ' :: tail, position⟩ (some ([node], next)) ∧
      next.skipGap =
        ⟨tail, (position.moved (pathText root members).utf8ByteSize 0).after ' '⟩ ∧
      ∃ first others, node.part.names = .ok (first :: others) ∧
        memberChain first others = chainAt position root members := by
  have htext : (pathText root members).toList ++ ' ' :: tail =
      root.toList ++ ((memberText members).toList ++ ' ' :: tail) := by
    simp [pathText]
  obtain ⟨node, hidentifier, hrule, hnode⟩ := @Reads.name
    ⟨(pathText root members).toList ++ ' ' :: tail, position⟩ _ _ hname htext
    (isNameChar_after_name members tail)
  obtain ⟨nodes, last, hmany, hlast, hrules, hsame⟩ :=
    Reads.members hnames hbrace (position.moved root.utf8ByteSize 0)
  refine ⟨_, last, (hidentifier.followed hmany).enclosed .structPath, ?_, node.asIdentifier,
    nodes.map Node.asIdentifier, names_structPath hrule hrules, ?_⟩
  · rw [hlast, pathText, String.utf8ByteSize_append, ← Position.moved_moved]
  · rw [hnode, hsame]
    rfl

end Reading

section Statements

variable {cursor last : Cursor} {nodes : List Node} {rule : Rule} {word : String}

/-- No two kinds of statements start with the same keyword. -/
theorem Rule.eq_of_leadingWord? : ∀ rule ∈ otherStatements, ∀ other ∈ otherStatements,
    rule.leadingWord?.isSome → rule.leadingWord? = other.leadingWord? → rule = other := by
  decide +kernel

/-- A statement that starts with a keyword is the only one that is read where it stands. -/
theorem Reads.anyStatement_of_keyword (hkind : rule ∈ Rule.otherStatements)
    (hleads : rule.leadingWord? = some word) (hsettled : cursor.skipGap = cursor)
    (hreads : Reads .spaced (.rule rule) cursor (some (nodes, last))) :
    Reads .spaced .anyStatement cursor (some (nodes, last)) := by
  have hname' := hreads.name_of_statement hleads
  have hword' : word ∈ reservedWords ∧ word ∉ expressionWords ∧ word ≠ "fn" := by
    cases rule <;> cases hleads <;> decide
  obtain ⟨hreserved, hnoExpression, hnoFunction⟩ := hword'
  have hreserved : cursor.name ∈ reservedWords := hname' ▸ hreserved
  obtain ⟨verdict, hany⟩ : ∃ verdict, Reads .spaced .anyStatement cursor verdict :=
    Pattern.exists_reads (by decide) .spaced cursor
  cases verdict with
  | none =>
    have hrefused := hany.oneOf_refused (.rule rule)
      (List.mem_map_of_mem (List.mem_append_left [.expressionStatement] hkind))
    cases hrefused.unique hreads
  | some found =>
    obtain ⟨found, next⟩ := found
    rcases hany.anyStatement_inv with ⟨other, hother, hform⟩ | ⟨_, hexpression⟩
    · -- for all statements but this one a name would have to be where the keyword is
      cases hform.startsStatement hother with
      | keyword hleads' _ _ hname =>
        obtain rfl := Rule.eq_of_leadingWord? rule hkind other hother (by rw [hleads]; rfl)
          (by rw [hleads, hleads', ← hname', ← hname])
        cases hform.unique hreads
        exact hany
      | function hword =>
        exact absurd (hname'.symm.trans (name_of_rule rfl (by decide) hword)) hnoFunction
      | method hname => exact absurd hreserved hname.name_of_identifier.1
      | assignment htarget =>
        obtain ⟨_, _, hprimary⟩ := htarget.operand_startsPrimary
        have hmem := List.mem_append_left ["not"] (hprimary.name_mem hreserved)
        rw [hname'] at hmem
        exact absurd hmem hnoExpression
    · have hmem := Reads.name_of_expression hsettled hexpression hreserved
      rw [hname'] at hmem
      exact absurd hmem hnoExpression

end Statements

section Programs

variable {source : String} {rule : Rule} {word : String} {form : Node} {last : Cursor}
  {made : Assembled StatementForm}

/-- A program of one statement that covers all of the source. -/
def Program.single (source : String) (sourceFile : Option String) (form : StatementForm) :
    Program :=
  ⟨[⟨form, .whole source⟩], sourceFile, .whole source⟩

/-- A text that is read as one statement with a keyword is the program of this statement. -/
theorem parseProgram_of_statement (hkind : rule ∈ Rule.otherStatements)
    (hleads : rule.leadingWord? = some word)
    (hsettled : (Cursor.ofText source).skipGap = Cursor.ofText source)
    (hreads : Reads .spaced (.rule rule) (.ofText source) (some ([form], last)))
    (hends : last.rest = [])
    (hmeans : form.part.meaning = Meaning.statementForm <$> made) (sourceFile : Option String) :
    parseProgram source sourceFile =
      (made.map (Program.single source sourceFile)).mapError (⟨source, ·⟩) := by
  have hends' : last.skipGap.rest = [] := by rwa [Cursor.skipGap_of_nil hends]
  have hmany : Reads .spaced (.many (.rule .statement)) (Cursor.ofText source).skipGap
      (some ([Rule.statement.nodeOf (.ofText source) last [form]], last)) := by
    have honly := reads_only_statement (hreads.anyStatement_of_keyword hkind hleads hsettled) hends'
    rw [Cursor.skipGap_of_nil hends] at honly
    rwa [hsettled]
  have hwhole : Span.between .origin last.position = .whole source :=
    (Rule.matches_of_reads hreads).takes.row.leads.whole hends
  have hmade : (Rule.statement.nodeOf (.ofText source) last [form]).part.statement =
      made.map (⟨·, .whole source⟩) := by
    change (form.part.meaning >>= _) >>= _ = _
    rw [hmeans, ← hwhole]
    cases made <;> rfl
  rw [parseProgram_of_reads hmany hends', partsOf, partsOf, List.mapM_cons, hmade,
    Cursor.skipGap_of_nil hends, hwhole]
  cases made <;> rfl

end Programs

/-- A condition with one clause stands for its one branch. -/
theorem meaning_of_if {start stop : Cursor} {word condition body : Node} {value : Expression}
    (hmeans : condition.part.expression = .ok value) :
    (Rule.ifStatement.nodeOf start stop [word, condition, body]).part.meaning =
      Meaning.statementForm <$> body.part.block.map fun block =>
        .conditional [⟨value, block, value.span.join block.span⟩] none
          (.between start.position stop.position) := by
  change Meaning.statementForm <$> (condition.part.expression >>= fun _ => _ >>= _) = _
  rw [hmeans]
  cases body.part.block <;> rfl

/-- A loop with one name stands for what it goes over and its block. -/
theorem meaning_of_for {start stop : Cursor} {word name inWord condition body : Node}
    {value : Expression} (hrule : name.rule = .identifier)
    (hmeans : condition.part.expression = .ok value) :
    (Rule.forStatement.nodeOf start stop [word, name, inWord, condition, body]).part.meaning =
      Meaning.statementForm <$> body.part.block.map fun block =>
        .forEach none name.asIdentifier value block (.between start.position stop.position) := by
  change Meaning.statementForm <$> (name.part.identifier >>= fun _ =>
    condition.part.expression >>= fun _ => _ >>= _) = _
  rw [identifier_part hrule, hmeans]
  cases body.part.block <;> rfl

/-- A text of an opening, a path and a block, with blanks between them. -/
def guardedText (opening root : String) (members : List String) (block : String) : String :=
  opening ++ " " ++ pathText root members ++ " " ++ block

/-- What the path of such a text stands for. -/
def guardOf (opening root : String) (members : List String) : Expression :=
  chainAt (Position.origin.moved (opening.utf8ByteSize + 1) 0) root members

/-- The block of such a text, given what is read in the text of the block alone. -/
def blockOf (opening root : String) (members : List String) (block : Node) : Assembled Block :=
  (block.moved (opening.utf8ByteSize + 1 + (pathText root members).utf8ByteSize + 1) 0).part.block

/-- The head of a loop with one name is read up to what the loop goes over. -/
theorem reads_loopHead {item : String} {tail : List Char} (hitemName : IsName item)
    (hstart : tail.head?.any isNameStart) (position : Position) :
    ∃ word afterWord name afterName inWord afterIn,
      Reads .spaced (.rule .kwFor)
        ⟨"for".toList ++ ' ' :: (item.toList ++ ' ' :: ("in".toList ++ ' ' :: tail)), position⟩
        (some ([word], afterWord)) ∧
      Reads .spaced (.rule .identifier) afterWord.skipGap (some ([name], afterName)) ∧
      Reads .spaced (.opt (.seq (.text ",") (.rule .identifier))) afterName.skipGap
        (some ([], afterName.skipGap)) ∧
      Reads .spaced (.rule .kwIn) afterName.skipGap.skipGap (some ([inWord], afterIn)) ∧
      afterIn.skipGap = ⟨tail, position.moved (("for " ++ item ++ " in").utf8ByteSize + 1) 0⟩ ∧
      name.rule = .identifier ∧
      name.asIdentifier = ⟨item, .between (position.moved 4 0)
        (position.moved (4 + item.utf8ByteSize) 0)⟩ := by
  obtain ⟨word, afterWord, hword, hafterWord⟩ := @Reads.keyword
    ⟨"for".toList ++ ' ' :: (item.toList ++ ' ' :: ("in".toList ++ ' ' :: tail)), position⟩
    .kwFor "for" _ rfl (by decide) rfl (hitemName.start_append _)
  obtain ⟨name, hname, hrule, hsame⟩ := Reads.name hitemName
    (congrArg Cursor.rest hafterWord) (by simp; decide)
  have hgap := @Cursor.skipGap_before_name ("in".toList ++ ' ' :: tail) rfl
    (afterWord.skipGap.position.moved item.utf8ByteSize 0)
  -- after the name no second one comes, but the other keyword
  have hsecond : Reads .spaced (.opt (.seq (.text ",") (.rule .identifier)))
      (Cursor.skipGap ⟨' ' :: ("in".toList ++ ' ' :: tail),
        afterWord.skipGap.position.moved item.utf8ByteSize 0⟩)
      (some ([], Cursor.skipGap ⟨' ' :: ("in".toList ++ ' ' :: tail),
        afterWord.skipGap.position.moved item.utf8ByteSize 0⟩)) := by
    rw [hgap]
    exact .optNone (.seqRefused (.word rfl))
  obtain ⟨inWord, afterIn, hin, hafterIn⟩ :=
    @Reads.keyword _ .kwIn "in" tail rfl (by decide) (congrArg Cursor.rest hgap) hstart
  refine ⟨word, afterWord, name, _, inWord, afterIn, hword, hname, hsecond, ?_, ?_, hrule, ?_⟩
  · rw [Cursor.skipGap_skipGap]
    exact hin
  · have hblank (position : Position) : position.after ' ' = position.moved 1 0 := rfl
    have hbytes : "for".utf8ByteSize + 1 + (item.utf8ByteSize + (1 + ("in".utf8ByteSize + 1))) =
        ("for " ++ item ++ " in").utf8ByteSize + 1 := by
      rw [String.utf8ByteSize_append, String.utf8ByteSize_append]
      change 3 + 1 + (item.utf8ByteSize + (1 + (2 + 1))) = 4 + item.utf8ByteSize + 3 + 1
      omega
    rw [hafterIn, hgap, hafterWord, hblank, Position.moved_moved, Position.moved_moved,
      Position.moved_moved, hbytes]
  · rw [hsame, hafterWord, Position.moved_moved]
    rfl

section Guarded

variable {root text item : String} {members : List String} {block : Node} {next : Cursor}
  {attempts : Attempts} (hname : IsName root) (hnames : ∀ name ∈ members, IsName name)
  (hfound : Rule.block.readText text = .matched next [block] attempts) (hfull : next.rest = [])

include hname in
/-- A path starts as names do. -/
theorem start_of_path (rest : List Char) :
    ((pathText root members).toList ++ rest).head?.any isNameStart := by
  have hstart := hname.start_append ((memberText members).toList ++ rest)
  rwa [pathText, String.toList_append, List.append_assoc]

include hname hnames hfound hfull

/-- In such a text the path is a guard, and the block is read after it. -/
theorem exists_guard (bytes : Nat) : ∃ stop last,
    Guard ⟨(pathText root members).toList ++ ' ' :: text.toList, Position.origin.moved bytes 0⟩
      stop (.ok (chainAt (Position.origin.moved bytes 0) root members)) ∧
    Reads .spaced (.rule .block) stop
      (some ([block.moved (bytes + (pathText root members).utf8ByteSize + 1) 0], last)) ∧
    last.rest = [] := by
  have hblock : Reads .spaced (.rule .block) (.ofText text) (some ([block], next)) :=
    Rule.reads_of_matched hfound
  have hbrace : text.toList.head? = some '\x7b' := hblock.brace_of_block
  obtain ⟨node, middle, hpath, hmiddle, first, others, hnames', hchain⟩ :=
    Reads.path hname hnames hbrace (Position.origin.moved bytes 0)
  have hmoved := hblock.moved (bytes + (pathText root members).utf8ByteSize + 1) 0 (by decide)
  refine ⟨middle.skipGap, next.moved (bytes + (pathText root members).utf8ByteSize + 1) 0,
    hchain ▸ .path hpath hnames', ?_, hfull⟩
  rw [hmiddle, Position.moved_moved]
  exact hmoved

/-- A condition with a path and a block is the path and the block. -/
theorem parseProgram_if (sourceFile : Option String) :
    parseProgram (guardedText "if" root members text) sourceFile =
      ((blockOf "if" root members block).map fun body =>
        let guard := guardOf "if" root members
        .single (guardedText "if" root members text) sourceFile
          (.conditional [⟨guard, body, guard.span.join body.span⟩] none
            (.whole (guardedText "if" root members text)))).mapError
        (⟨guardedText "if" root members text, ·⟩) := by
  have htext : (guardedText "if" root members text).toList =
      "if".toList ++ ' ' :: ((pathText root members).toList ++ ' ' :: text.toList) := by
    simp [guardedText]
  obtain ⟨word, afterWord, hword, hafter⟩ :=
    @Reads.keyword (.ofText (guardedText "if" root members text)) .kwIf "if" _ rfl (by decide)
      htext (start_of_path hname _)
  obtain ⟨stop, last, hguard, hblock, hends⟩ :=
    exists_guard hname hnames hfound hfull ("if".utf8ByteSize + 1)
  obtain ⟨condition, hcondition, hvalue⟩ := hguard.reads hblock
  rw [← hguard.settled] at hblock
  have hclauses : Reads .spaced (.seq (.many (.rule .elseifClause)) (.opt (.rule .elseClause)))
      last.skipGap (some ([], last)) := by
    rw [Cursor.skipGap_of_nil hends]
    have hmany : Reads .spaced (.many (.rule .elseifClause)) last (some ([], last)) :=
      .manyNone (Rule.refused_at_end rfl hends)
    refine hmany.followed ?_
    change Reads .spaced _ last.skipGap _
    rw [Cursor.skipGap_of_nil hends]
    exact .optNone (Rule.refused_at_end rfl hends)
  have hall : Reads .spaced (.rule .ifStatement) (.ofText (guardedText "if" root members text))
      (some ([Rule.ifStatement.nodeOf _ last [word, condition, _]], last)) :=
    (hword.followed ((hafter ▸ hcondition).followed (hblock.followed hclauses))).enclosed
      .ifStatement
  have hwhole := (Rule.matches_of_reads hall).takes.row.leads.whole hends
  have hsettled : (Cursor.ofText (guardedText "if" root members text)).skipGap =
      Cursor.ofText (guardedText "if" root members text) :=
    Cursor.skipGap_of_head (by rw [Cursor.ofText, htext]; rfl) (by decide) (by decide)
  rw [parseProgram_of_statement (by decide) rfl hsettled hall hends (meaning_of_if hvalue)]
  change Except.mapError _ (Except.map _ (Except.map (fun _ => StatementForm.conditional _ _
    (Span.between Position.origin last.position)) (blockOf "if" root members block))) = _
  rw [hwhole]
  cases blockOf "if" root members block <;> rfl

/-- A loop over a path with a block goes over the path and runs the block. -/
theorem parseProgram_for (hitemName : IsName item) (sourceFile : Option String) :
    parseProgram (guardedText ("for " ++ item ++ " in") root members text) sourceFile =
      ((blockOf ("for " ++ item ++ " in") root members block).map fun body =>
        .single (guardedText ("for " ++ item ++ " in") root members text) sourceFile
          (.forEach none ⟨item, .between (Position.origin.moved 4 0)
              (Position.origin.moved (4 + item.utf8ByteSize) 0)⟩
            (guardOf ("for " ++ item ++ " in") root members) body
            (.whole (guardedText ("for " ++ item ++ " in") root members text)))).mapError
        (⟨guardedText ("for " ++ item ++ " in") root members text, ·⟩) := by
  have htext : (guardedText ("for " ++ item ++ " in") root members text).toList =
      "for".toList ++ ' ' :: (item.toList ++ ' ' :: ("in".toList ++
        ' ' :: ((pathText root members).toList ++ ' ' :: text.toList))) := by
    simp [guardedText]
  obtain ⟨word, afterWord, name', afterName, inWord, afterIn, hword, hname', hsecond, hin, hafter,
    hrule, hsame⟩ := reads_loopHead hitemName (start_of_path hname (' ' :: text.toList)) .origin
  rw [← htext] at hword
  obtain ⟨stop, last, hguard, hblock, hends⟩ := exists_guard hname hnames hfound hfull
    (("for " ++ item ++ " in").utf8ByteSize + 1)
  obtain ⟨iterable, hiterable, hvalue⟩ := hguard.reads hblock
  rw [← hguard.settled] at hblock
  have hall : Reads .spaced (.rule .forStatement)
      (.ofText (guardedText ("for " ++ item ++ " in") root members text))
      (some ([Rule.forStatement.nodeOf _ last [word, name', inWord, iterable, _]], last)) :=
    (hword.followed (hname'.followed (hsecond.followed (hin.followed
      ((hafter ▸ hiterable).followed hblock))))).enclosed .forStatement
  have hwhole := (Rule.matches_of_reads hall).takes.row.leads.whole hends
  have hsettled :
      (Cursor.ofText (guardedText ("for " ++ item ++ " in") root members text)).skipGap =
        Cursor.ofText (guardedText ("for " ++ item ++ " in") root members text) :=
    Cursor.skipGap_of_head (by rw [Cursor.ofText, htext]; rfl) (by decide) (by decide)
  rw [parseProgram_of_statement (by decide) rfl hsettled hall hends (meaning_of_for hrule hvalue)]
  change Except.mapError _ (Except.map _ (Except.map (fun _ => StatementForm.forEach none _ _ _
    (Span.between Position.origin last.position))
    (blockOf ("for " ++ item ++ " in") root members block))) = _
  rw [hwhole, hsame]
  cases blockOf ("for " ++ item ++ " in") root members block <;> rfl

end Guarded

/-- No struct literal takes a block. Whatever block comes after it, a path of names is all there is
of the condition of an `if` and of what a `for` goes over. In place, a guard, which is a path or a
ternary that ends in one, is the whole expression in front of its block, and further clauses,
conditions and loops are read with the guard and the block. -/
theorem structLiteral_takes_no_block :
    (∀ root members text block next attempts sourceFile, IsName root →
      (∀ name ∈ members, IsName name) →
      Rule.block.readText text = .matched next [block] attempts → next.rest = [] →
        parseProgram (guardedText "if" root members text) sourceFile =
          ((blockOf "if" root members block).map fun body =>
            let guard := guardOf "if" root members
            .single (guardedText "if" root members text) sourceFile
              (.conditional [⟨guard, body, guard.span.join body.span⟩] none
                (.whole (guardedText "if" root members text)))).mapError
            (⟨guardedText "if" root members text, ·⟩) ∧
        ∀ item, IsName item →
          parseProgram (guardedText ("for " ++ item ++ " in") root members text) sourceFile =
            ((blockOf ("for " ++ item ++ " in") root members block).map fun body =>
              .single (guardedText ("for " ++ item ++ " in") root members text) sourceFile
                (.forEach none ⟨item, .between (Position.origin.moved 4 0)
                    (Position.origin.moved (4 + item.utf8ByteSize) 0)⟩
                  (guardOf ("for " ++ item ++ " in") root members) body
                  (.whole (guardedText ("for " ++ item ++ " in") root members text)))).mapError
              (⟨guardedText ("for " ++ item ++ " in") root members text, ·⟩)) ∧
    ∀ cursor stop last value block, Guard cursor.skipGap stop value →
      Reads .spaced (.rule .block) stop (some ([block], last)) →
        (∃ node, Reads .spaced (.rule .expression) cursor.skipGap (some ([node], stop)) ∧
          node.part.expression = value) ∧
        (∀ start words,
          Reads .spaced (.alt (.rule .kwElseif) (.seq (.rule .kwElse) (.rule .kwIf))) start
            (some (words, cursor)) →
          ∃ clause, Reads .spaced (.rule .elseifClause) start (some ([clause], last)) ∧
            clause.part.meaning = do
              let condition ← value
              return .branch ⟨condition, ← block.part.block,
                .between start.position last.position⟩) ∧
        (∀ start words, Reads .spaced (.rule .kwIf) start (some (words, cursor)) →
          ∃ statement final, Reads .spaced (.rule .ifStatement) start (some ([statement], final)) ∧
            Gives statement.part.meaning fun meaning => ∃ branch branches otherwise span,
              meaning = .statementForm (.conditional (branch :: branches) otherwise span) ∧
                value = .ok branch.condition ∧ block.part.block = .ok branch.body) ∧
        ∀ start afterWord afterItem afterSecond first item second words,
          Reads .spaced (.rule .kwFor) start (some (first, afterWord)) →
          Reads .spaced (.rule .identifier) afterWord.skipGap (some (item, afterItem)) →
          Reads .spaced (.opt (.seq (.text ",") (.rule .identifier))) afterItem.skipGap
            (some (second, afterSecond)) →
          Reads .spaced (.rule .kwIn) afterSecond.skipGap (some (words, cursor)) →
          ∃ statement, Reads .spaced (.rule .forStatement) start (some ([statement], last)) ∧
            Gives statement.part.meaning fun meaning => ∃ index item iterable body span,
              meaning = .statementForm (.forEach index item iterable body span) ∧
                value = .ok iterable ∧ block.part.block = .ok body :=
  ⟨fun _ _ _ _ _ _ sourceFile hname hnames hfound hfull =>
    ⟨parseProgram_if hname hnames hfound hfull sourceFile,
      fun _ hitemName => parseProgram_for hname hnames hfound hfull hitemName sourceFile⟩,
    fun _ _ _ _ _ hguard hfollows =>
      ⟨hguard.reads hfollows, fun _ _ => hguard.reads_elseif hfollows,
        fun _ _ => hguard.reads_if hfollows, fun _ _ _ _ _ _ _ _ => hguard.reads_for hfollows⟩⟩

/-- A block that starts like the fields of a literal would, but for the colon. -/
theorem structLiteral_takes_no_block_of_names : ∃ block,
    parseProgram "if user.active { name = 1 }" none =
      ((blockOf "if" "user" ["active"] block).map fun body =>
        .single "if user.active { name = 1 }" none (.conditional
          [⟨guardOf "if" "user" ["active"], body,
            (guardOf "if" "user" ["active"]).span.join body.span⟩] none ⟨0, 27, 1⟩)).mapError
        (⟨"if user.active { name = 1 }", ·⟩) ∧
    (parseProgram "if user.active { name = 1 }" none).isOk ∧
    ∃ stop node, Reads .spaced (.rule .expression)
        (Cursor.skipGap ⟨"user.active { name = 1 }".toList, ⟨3, 1⟩⟩) (some ([node], stop)) ∧
      node.part.expression = .ok (guardOf "if" "user" ["active"]) := by
  obtain ⟨next, block, attempts, hfound, hfull⟩ : ∃ next block attempts,
      Rule.block.readText "{ name = 1 }" = .matched next [block] attempts ∧ next.rest = [] :=
    Reply.exists_of_isWhole (by decide +kernel)
  have hname : IsName "user" := by decide
  have hnames : ∀ name ∈ ["active"], IsName name := by decide
  obtain ⟨hprogram, -⟩ := structLiteral_takes_no_block.1 "user" ["active"] "{ name = 1 }" block next
    attempts none hname hnames hfound hfull
  obtain ⟨stop, last, hguard, hblock, -⟩ := exists_guard hname hnames hfound hfull 3
  have hsettled : Cursor.skipGap ⟨"user.active { name = 1 }".toList, ⟨3, 1⟩⟩ =
      ⟨"user.active { name = 1 }".toList, ⟨3, 1⟩⟩ := by decide +kernel
  obtain ⟨node, hnode, hvalue⟩ := (structLiteral_takes_no_block.2
    ⟨"user.active { name = 1 }".toList, ⟨3, 1⟩⟩ stop last _ _ (hsettled.symm ▸ hguard) hblock).1
  exact ⟨block, hprogram, by decide +kernel, stop, node, hnode, hvalue⟩

end Kestrel
