import Kestrel.Proofs.Grammar.Furthest
import Kestrel.Proofs.Syntax.Escape
import Kestrel.Proofs.Syntax.Preorder

/-!
# Where a refused text is at fault

A text is refused at the furthest place that was reached, for a target that cannot be assigned to,
or for an escape that does not exist. The error tells where in the text this is, and if it is an
escape, it is the first one of the whole text.
-/

namespace Kestrel

/-- The tree that a source text has under a rule. -/
def Rule.Tree (rule : Rule) (source : String) (root : Node) : Prop :=
  ∃ next attempts, rule.readText source = .matched next [root] attempts

namespace Node

/-- A string literal with an escape that does not exist, at an offset of the text. -/
def HasBadEscape (literal : Node) (offset : Nat) (mark : Char) : Prop :=
  literal.rule = .string ∧ ∃ content ∈ literal.children, ∃ front back,
    content.text.toList = front ++ '\\' :: mark :: back ∧ Contents front ∧
      mark ∉ escapes.map Prod.fst ∧
      offset = content.start.offset + (String.ofList front).utf8ByteSize

/-- An escape that does not exist, in a string literal anywhere in a tree. -/
def BadEscape (root : Node) (offset : Nat) (mark : Char) : Prop :=
  ∃ literal ∈ root.all, literal.HasBadEscape offset mark

/-- The first escape of a tree that does not exist. -/
def FirstBadEscape (root : Node) (offset : Nat) (mark : Char) : Prop :=
  root.BadEscape offset mark ∧
    ∀ offset' mark', root.BadEscape offset' mark' → offset ≤ offset'

/-- An assignment to what a target stands for. -/
def AssignsTo (assignment : Node) (target : Expression) : Prop :=
  assignment.rule = .assignment ∧ ∃ left operator value,
    assignment.children = [left, operator, value] ∧ left.part.expression = .ok target

/-- A string literal as it stands in a source text. -/
def IsLiteral (source : String) (literal : Node) : Prop :=
  ∃ (cursor : Cursor) (raw rest : List Char), cursor.In source ∧ Contents raw ∧
    cursor.rest = '"' :: (raw ++ '"' :: rest) ∧ literal = cursor.string raw rest

end Node

section Escapes

variable {source : String} {front front' raw tail text back : List Char} {mark : Char}
  {cursor : Cursor} {rest : List Char} {offset : Nat} {literal : Node}

/-- What spells a text goes no further than up to the first escape that does not exist. -/
theorem Decodes.prefix_of_bad (hdecodes : Decodes front text)
    (hsame : front ++ tail = front' ++ '\\' :: mark :: back) (hcontents : Contents front')
    (hunknown : mark ∉ escapes.map Prod.fst) : ∃ more, front' = front ++ more := by
  induction hdecodes generalizing front' with
  | nil => exact ⟨front', rfl⟩
  | @escape found c raw text hlisted _ ih =>
    cases hcontents with
    | nil =>
      obtain ⟨rfl, -⟩ := List.cons.inj (List.cons.inj hsame).2
      exact absurd (List.mem_map_of_mem (f := Prod.fst) hlisted) hunknown
    | escape other hothers =>
      obtain ⟨rfl, hothers'⟩ := List.cons.inj (List.cons.inj hsame).2
      obtain ⟨more, rfl⟩ := ih hothers' hothers
      exact ⟨more, rfl⟩
    | plain _ hnoBackslash => exact absurd (List.cons.inj hsame).1.symm hnoBackslash
  | @plain c raw text _ hnoBackslash _ ih =>
    cases hcontents with
    | nil | escape => exact absurd (List.cons.inj hsame).1 hnoBackslash
    | plain _ _ hothers =>
      obtain ⟨rfl, hothers'⟩ := List.cons.inj hsame
      obtain ⟨more, rfl⟩ := ih hothers' hothers
      exact ⟨more, rfl⟩

/-- Two texts together have the bytes of both. -/
theorem utf8ByteSize_ofList_append (first second : List Char) :
    (String.ofList (first ++ second)).utf8ByteSize =
      (String.ofList first).utf8ByteSize + (String.ofList second).utf8ByteSize := by
  rw [String.ofList_append, String.utf8ByteSize_append]

/-- What is wrong with a literal is wrong with its inside. -/
theorem hasBadEscape_string : (cursor.string raw rest).HasBadEscape offset mark ↔
    ∃ front back, raw = front ++ '\\' :: mark :: back ∧ Contents front ∧
      mark ∉ escapes.map Prod.fst ∧
      offset = cursor.position.offset + 1 + (String.ofList front).utf8ByteSize := by
  simp only [Node.HasBadEscape, Cursor.string, Rule.nodeOf, List.mem_singleton, exists_eq_left,
    String.toList_ofList, true_and]
  rfl

/-- A literal means a text and has no escape that does not exist, or the first one in it is its
fault and is marked in the text. -/
theorem Node.IsLiteral.text_or_bad (hisLiteral : literal.IsLiteral source) :
    (literal.part.HasMeaning ∧ ∀ offset mark, ¬literal.HasBadEscape offset mark) ∨
    ∃ offset mark, literal.part.meaning = .error (.invalidEscape offset mark) ∧
      literal.HasBadEscape offset mark ∧
      (∀ offset' mark', literal.HasBadEscape offset' mark' → offset ≤ offset') ∧
      offset < literal.stop.offset ∧
      (SyntaxFault.invalidEscape offset mark).label.Marks source (String.ofList ['\\', mark]) := by
  obtain ⟨cursor, raw, rest, hwithin, hcontents, hplace, rfl⟩ := hisLiteral
  simp only [hasBadEscape_string, Part.HasMeaning, meaning_of_literal]
  have hresolved := hcontents.resolved hwithin hplace
  generalize resolveEscapes (cursor.position.offset + 1) [] raw = made at hresolved
  cases hresolved with
  | @text _ text hdecodes =>
    refine .inl ⟨⟨_, rfl⟩, ?_⟩
    rintro offset mark ⟨front, back, hraw, hfront, hmark, -⟩
    obtain ⟨more, rfl⟩ := hdecodes.prefix_of_bad (by rw [List.append_nil, hraw]) hfront hmark
    have hlength := congrArg List.length hraw
    simp at hlength
  | @bad front text back mark hdecodes hunknown hmarks =>
    refine .inr ⟨_, mark, rfl, ⟨front, back, rfl, hdecodes.contents, hunknown, rfl⟩, ?_, ?_, hmarks⟩
    · rintro offset' mark' ⟨front', back', hraw, hfront', hmark', rfl⟩
      obtain ⟨more, rfl⟩ := hdecodes.prefix_of_bad hraw hfront' hmark'
      rw [utf8ByteSize_ofList_append]
      omega
    · have hquote : ∀ position : Position, (position.after '"').offset = position.offset + 1 :=
        fun _ => rfl
      change _ < (Cursor.afterString cursor _ rest).position.offset
      rw [Cursor.afterString, hquote, Position.foldl_after, utf8ByteSize_ofList_append]
      dsimp only
      rw [hquote]
      omega

/-- A literal with an escape that does not exist has no meaning. -/
theorem Node.HasBadEscape.no_meaning (hbad : literal.HasBadEscape offset mark)
    (hisLiteral : literal.IsLiteral source) : ¬literal.part.HasMeaning := by
  rintro ⟨meaning, hmeaning⟩
  rcases hisLiteral.text_or_bad with ⟨-, hnone⟩ | ⟨_, _, hfails, -⟩
  · exact hnone offset mark hbad
  · cases hmeaning.symm.trans hfails

/-- An escape of a literal does not stand before the literal. -/
theorem Node.HasBadEscape.start_le (hbad : literal.HasBadEscape offset mark)
    (hisLiteral : literal.IsLiteral source) : literal.start.offset ≤ offset := by
  obtain ⟨cursor, raw, rest, -, -, -, rfl⟩ := hisLiteral
  obtain ⟨front, back, -, -, -, rfl⟩ := hasBadEscape_string.mp hbad
  change cursor.position.offset ≤ _
  omega

end Escapes

/-- Wherever something is matched in a text, the string literals in it stand in the text. -/
theorem Matches.literals {source : String} {mode : Mode} {pattern : Pattern} {cursor next : Cursor}
    {nodes : List Node} (hfound : Matches mode pattern cursor nodes next)
    (hwithin : cursor.In source) : ∀ node ∈ nodes, node.Throughout fun inner =>
      inner.rule = .string → inner.IsLiteral source := by
  induction hfound with
  | start | finish | word | range | anything | absent | optNone | manyNone =>
    exact List.forall_mem_nil _
  | token _ ih | altFirst _ ih | altSecond _ ih | optSome _ ih | manyFirst _ ih => exact ih hwithin
  | seq hfront _ ihFront ihBack =>
    exact List.forall_mem_append.mpr ⟨ihFront hwithin,
      ihBack (Pattern.between_in _ (hwithin.leads hfront.takes.row.leads))⟩
  | manyNext hsofar _ ihSofar ihRound =>
    exact List.forall_mem_append.mpr ⟨ihSofar hwithin,
      ihRound (Pattern.between_in _ (hwithin.leads hsofar.takes.row.leads))⟩
  | @node mode name cursor next children houtside hinside ih =>
    refine List.forall_mem_singleton.mpr (.intro ?_ (ih hwithin))
    intro hrule
    obtain rfl : name = .string := hrule
    obtain ⟨raw, rest, hcontents, hplace, -, hnode⟩ :=
      (Matches.node houtside hinside).string_inv houtside
    exact ⟨cursor, raw, rest, hwithin, hcontents, hplace, (List.cons.inj hnode).1⟩

/-- What is known of the tree of a whole text. -/
structure Node.IsTreeOf (source : String) (root : Node) : Prop where
  wellFormed : root.Throughout WellFormed
  literals : root.Throughout fun inner => inner.rule = .string → inner.IsLiteral source
  sound : ∀ inner ∈ root.all, inner.part.Sound source
  ordered : root.all.Pairwise fun first second =>
    second ∈ allOf first.children ∨ first.stop.offset ≤ second.start.offset

/-- All this is known of the tree that a source text has under a rule. -/
theorem Rule.Tree.isTreeOf {rule : Rule} {source : String} {root : Node}
    (htree : rule.Tree source root) : root.rule = rule ∧ root.IsTreeOf source := by
  obtain ⟨next, attempts, hreply⟩ := htree
  have hfound := rule.matches_readText source
  rw [hreply] at hfound
  have hrow := hfound.takes.row
  have hall : allOf [root] = root.all := by simp [allOf]
  have hsound := hrow.all_sound Cursor.ofText_in
  have hordered := hrow.all_pairwise
  rw [hall] at hsound hordered
  refine ⟨?_, ?_, ?_, hsound, hordered⟩
  · cases hfound
    rfl
  · exact List.forall_mem_singleton.mp hfound.wellFormed
  · exact List.forall_mem_singleton.mp (hfound.literals Cursor.ofText_in)

section Trees

variable {source : String} {root : Node} {fault : SyntaxFault}

/-- A literal contains no other one. -/
theorem Node.IsLiteral.rule_inside {literal inner : Node} (hisLiteral : literal.IsLiteral source)
    (hmember : inner ∈ allOf literal.children) : inner.rule = .stringContent := by
  obtain ⟨cursor, raw, rest, -, -, -, rfl⟩ := hisLiteral
  obtain ⟨content, hcontent, hinner⟩ := mem_allOf.mp hmember
  obtain rfl := List.mem_singleton.mp hcontent
  rw [Node.all_eq] at hinner
  obtain rfl := List.mem_singleton.mp hinner
  rfl

/-- If a tree is at fault, there is an assignment in it whose target cannot be assigned to, and the
target lies in the text; or the fault is its first escape that does not exist. -/
theorem Node.IsTreeOf.fault_cases (htree : root.IsTreeOf source)
    (hfails : root.part.meaning = .error fault) :
    (∃ assignment ∈ root.all, ∃ target, assignment.AssignsTo target ∧
      target.form.isAssignable = false ∧ target.span.Fits source ∧
      fault = .notAssignable target.span) ∨
    ∃ offset mark, fault = .invalidEscape offset mark ∧ root.FirstBadEscape offset mark ∧
      fault.label.Marks source (String.ofList ['\\', mark]) := by
  obtain ⟨front, found, back, hall, howns, hfails', hfront⟩ := htree.wellFormed.exists_fault hfails
  have hmem : found ∈ root.all := by simp [hall]
  generalize hrule : found.rule = rule, hparts : partsOf found.children = parts at howns
  cases howns with
  | @target target operator value made hmeans hrefused =>
    simp only [partsOf_eq_map, List.map_eq_cons_iff, List.map_eq_nil_iff] at hparts
    obtain ⟨left, _, hchildren, rfl, symbol, _, rfl, -, right, _, rfl, -, rfl⟩ := hparts
    have hleft : left ∈ root.all :=
      htree.wellFormed.child_mem found hmem left (by simp [hchildren])
    have hlaid := (htree.sound left hleft).expression (Nat.le_refl _) made hmeans
    exact .inl ⟨found, hmem, made, ⟨hrule, left, symbol, right, hchildren, hmeans⟩, hrefused,
      hlaid.fits, rfl⟩
  | escape =>
    right
    have hliteral := htree.literals.of_mem found hmem hrule
    rcases hliteral.text_or_bad with ⟨⟨_, hmeaning⟩, -⟩ |
      ⟨offset, mark, hmeaning, hbad, hleast, hstop, hmarks⟩
    · cases hmeaning.symm.trans hfails'
    · cases hmeaning.symm.trans hfails'
      refine ⟨offset, mark, rfl, ⟨⟨found, hmem, hbad⟩, ?_⟩, hmarks⟩
      rintro offset' mark' ⟨other, hother, hbad'⟩
      have hliteral' := htree.literals.of_mem other hother hbad'.1
      rw [hall] at hother
      rcases List.mem_append.mp hother with hother | hother
      · -- what comes before has a meaning, or would contain the literal
        rcases hfront other hother with hmeans' | hinside
        · exact absurd hmeans' (hbad'.no_meaning hliteral')
        · cases hrule.symm.trans (hliteral'.rule_inside hinside)
      · rcases List.mem_cons.mp hother with rfl | hother
        · exact hleast offset' mark' hbad'
        · -- what comes after starts after the literal
          have hordered := htree.ordered
          rw [hall] at hordered
          have hafter := (List.pairwise_cons.mp (List.pairwise_append.mp hordered).2.1).1
          rcases hafter other hother with hinside | hle
          · cases hbad'.1.symm.trans (hliteral.rule_inside hinside)
          · have hstart := hbad'.start_le hliteral'
            omega

/-- If no target in a tree is refused and an escape in it does not exist, the first such escape is
the fault. -/
theorem Node.IsTreeOf.fault_of_badEscape (htree : root.IsTreeOf source)
    (hassignable : ∀ assignment ∈ root.all, ∀ target, assignment.AssignsTo target →
      target.form.isAssignable) (hbad : ∃ offset mark, root.BadEscape offset mark) :
    ∃ offset mark, root.part.meaning = .error (.invalidEscape offset mark) ∧
      root.FirstBadEscape offset mark := by
  obtain ⟨_, _, literal, hmem, hbad'⟩ := hbad
  cases hmeaning : root.part.meaning with
  | ok meaning =>
    have hmeans := (htree.wellFormed.hasMeaning ⟨meaning, hmeaning⟩).of_mem literal hmem
    exact absurd hmeans (hbad'.no_meaning (htree.literals.of_mem literal hmem hbad'.1))
  | error fault =>
    rcases htree.fault_cases hmeaning with
      ⟨assignment, hassignment, target, hassigns, hrefused, -⟩ | ⟨offset, mark, rfl, hfirst, -⟩
    · exact absurd (hassignable assignment hassignment target hassigns) (by simp [hrefused])
    · exact ⟨offset, mark, rfl, hfirst⟩

end Trees

/-- An error of a text that is refused under a rule points where it says. -/
structure SyntaxError.Points (rule : Rule) (source : String) (error : SyntaxError) : Prop where
  /-- The error carries all of the text. -/
  source_eq : error.source = source
  /-- Where the text does not follow the grammar, the label starts in it or at its end, between two
  characters, on the line that the line feeds before it make. -/
  place : ∀ reached alternatives, error.fault = .expected reached alternatives →
    error.fault.label.offset ≤ source.utf8ByteSize ∧
    (⟨error.fault.label.offset⟩ : String.Pos.Raw).IsValid source ∧
    ∃ before after, source = before ++ after ∧
      before.utf8ByteSize = error.fault.label.offset ∧
      error.fault.line? = some (1 + before.toList.count '\n')
  /-- Where a target cannot be assigned to, the label covers the target of an assignment of the
  text. -/
  target : ∀ span, error.fault = .notAssignable span → ∃ root assignment target,
    rule.Tree source root ∧ assignment ∈ root.all ∧ assignment.AssignsTo target ∧
      target.form.isAssignable = false ∧ target.span.Fits source ∧
      error.fault.label.offset = target.span.start ∧
      error.fault.label.length = target.span.length
  /-- Where an escape does not exist, it is the first one of the text, and the label covers it. -/
  escape : ∀ offset mark, error.fault = .invalidEscape offset mark → ∃ root,
    rule.Tree source root ∧ root.FirstBadEscape offset mark ∧
      error.fault.label.Marks source (String.ofList ['\\', mark])

section Parsing

variable {rule : Rule} {source : String} {sourceFile : Option String} {root : Node}

/-- A text has a tree under a rule, or is refused at a place of it. -/
theorem readPart_cases (rule : Rule) (source : String) :
    (∃ place alternatives, readPart rule source = .error (.expected place alternatives) ∧
      place.In source) ∨
    ∃ root, rule.Tree source root ∧ readPart rule source = .ok root.part := by
  have hfound := rule.matches_readText source
  unfold readPart
  cases hreply : rule.readText source with
  | matched next nodes attempts =>
    rw [hreply] at hfound
    cases hfound with
    | node => exact .inr ⟨_, ⟨next, attempts, hreply⟩, rfl⟩
  | failed attempts =>
    exact .inl ⟨attempts.furthest, attempts.alternatives, rfl, Rule.furthest_in hreply⟩
  | exhausted => exact .inl ⟨.origin, [], rfl, Position.origin_in⟩

/-- The tree of a source text forms the part of the whole text. -/
theorem readPart_of_tree (htree : rule.Tree source root) :
    readPart rule source = .ok root.part := by
  obtain ⟨next, attempts, hreply⟩ := htree
  rw [readPart, hreply]

section Entries

variable {α : Type} {read : Part → Assembled α}

/-- If all that is asked of a tree is its meaning, the error of a refused text points right. -/
theorem points_of_refused {error : SyntaxError}
    (hreads : ∀ part, part.rule = rule ∧ part.Apt →
      InTurn (fun _ => False) [part] (read part) fun _ => True)
    (hrefused : (readPart rule source >>= read).mapError (SyntaxError.mk source) = .error error) :
    error.Points rule source := by
  rcases readPart_cases rule source with ⟨place, alternatives, hread, hplace⟩ | ⟨root, htree, hread⟩
  · rw [hread] at hrefused
    cases hrefused
    refine ⟨rfl, ?_, fun _ h => (by cases h), fun _ _ h => (by cases h)⟩
    rintro _ _ ⟨⟩
    refine ⟨hplace.offset_le, hplace.boundary, ?_⟩
    obtain ⟨before, after, rfl, rfl⟩ := hplace
    exact ⟨before, after, rfl, rfl, rfl⟩
  · rw [hread] at hrefused
    change Except.mapError _ (read root.part) = _ at hrefused
    obtain ⟨hrule, htreeOf⟩ := htree.isTreeOf
    have hturn := hreads root.part ⟨by rw [Node.rule_part, hrule], htreeOf.wellFormed.apt⟩
    cases hmade : read root.part with
    | ok made =>
      rw [hmade] at hrefused
      cases hrefused
    | error fault =>
      rw [hmade] at hrefused hturn
      cases hrefused
      have hfails : root.part.meaning = .error fault := by
        rcases hturn with himpossible | hfails
        · exact himpossible.elim
        · cases hfails with
          | here hfails => exact hfails
          | later _ hnone => cases hnone
      rcases htreeOf.fault_cases hfails with
        ⟨assignment, hmem, target, hassigns, hrefused', hfits, rfl⟩ |
        ⟨offset, mark, rfl, hfirst, hmarks⟩
      · refine ⟨rfl, fun _ _ h => (by cases h), ?_, fun _ _ h => (by cases h)⟩
        rintro _ ⟨⟩
        exact ⟨root, assignment, target, htree, hmem, hassigns, hrefused', hfits, rfl, rfl⟩
      · refine ⟨rfl, fun _ _ h => (by cases h), fun _ h => (by cases h), ?_⟩
        rintro _ _ ⟨⟩
        exact ⟨root, htree, hfirst, hmarks⟩

/-- If a tree that is at fault is not looked past, its first escape that does not exist is reported
unless a target is refused. -/
theorem refused_for_badEscape
    (hstrict : ∀ part fault, part.meaning = .error fault → read part = .error fault)
    (htree : rule.Tree source root)
    (hassignable : ∀ assignment ∈ root.all, ∀ target, assignment.AssignsTo target →
      target.form.isAssignable) (hbad : ∃ offset mark, root.BadEscape offset mark) :
    ∃ offset mark, (readPart rule source >>= read).mapError (SyntaxError.mk source) =
        .error ⟨source, .invalidEscape offset mark⟩ ∧ root.FirstBadEscape offset mark := by
  obtain ⟨offset, mark, hmeaning, hfirst⟩ := htree.isTreeOf.2.fault_of_badEscape hassignable hbad
  refine ⟨offset, mark, ?_, hfirst⟩
  rw [readPart_of_tree htree]
  change Except.mapError _ (read root.part) = _
  rw [hstrict _ _ hmeaning]
  rfl

end Entries

/-- The program that a part stands for. -/
def Part.program (sourceFile : Option String) (part : Part) : Assembled Program := do
  match ← part.meaning with
  | .program program => return { program with sourceFile }
  | _ => part.misplaced .program

/-- A program is read. -/
theorem inTurn_program {part : Part} (hpart : part.rule = .program ∧ part.Apt) :
    InTurn (fun _ => False) [part] (part.program sourceFile) fun _ => True := by
  refine (inTurn_means hpart).cons fun meaning _ hof => ?_
  obtain ⟨program, rfl⟩ := hof
  exact inTurn_nil_pure.mpr trivial

end Parsing

/-- Errors point where they say, whether a text is parsed as a program or as an expression; and
where the grammar accepts a text and no target in it is refused, but an escape in one of its
literals does not exist, the first such escape of the whole text is reported. -/
theorem errors_point (source : String) (sourceFile : Option String) :
    (∀ error, parseProgram source sourceFile = .error error → error.Points .program source) ∧
    (∀ error, parseExpression source = .error error → error.Points .singleExpression source) ∧
    ∀ root, (∀ assignment ∈ root.all, ∀ target, assignment.AssignsTo target →
        target.form.isAssignable) →
      (∃ offset mark, root.BadEscape offset mark) →
      (Rule.program.Tree source root → ∃ offset mark, parseProgram source sourceFile =
        .error ⟨source, .invalidEscape offset mark⟩ ∧ root.FirstBadEscape offset mark) ∧
      (Rule.singleExpression.Tree source root → ∃ offset mark, parseExpression source =
        .error ⟨source, .invalidEscape offset mark⟩ ∧ root.FirstBadEscape offset mark) := by
  refine ⟨fun error hrefused => ?_, fun error hrefused => ?_, fun root hassignable hbad => ⟨?_, ?_⟩⟩
  · exact points_of_refused (fun _ => inTurn_program) hrefused
  · exact points_of_refused (fun _ hpart => inTurn_expression hpart fun _ => id) hrefused
  · intro htree
    refine refused_for_badEscape (fun part fault hfails => ?_) htree hassignable hbad
    change part.meaning >>= _ = _
    rw [hfails]
    rfl
  · intro htree
    refine refused_for_badEscape (fun part fault hfails => ?_) htree hassignable hbad
    rw [Part.expression, hfails]
    rfl

/-- Whether a reply is one node, with some property. -/
def Reply.leaves (test : Node → Bool) : Reply → Bool
  | .matched _ [node] _ => test node
  | _ => false

/-- A reply that leaves a node of a kind gives this node. -/
theorem Reply.exists_of_leaves {test : Node → Bool} {reply : Reply} (hleaves : reply.leaves test) :
    ∃ next node attempts, reply = .matched next [node] attempts ∧ test node := by
  unfold Reply.leaves at hleaves
  split at hleaves
  · exact ⟨_, _, _, rfl, hleaves⟩
  · contradiction

/-- A text that ends too early, a call that is assigned to, and of three literals the second and the
third with an escape that does not exist. -/
theorem errors_point_of_refused :
    (∃ error, parseExpression "1 +\n" = .error error ∧ error.Points .singleExpression "1 +\n") ∧
    (∃ error, parseProgram "f() = 1" none = .error error ∧ error.Points .program "f() = 1") ∧
    ∃ root offset mark, parseExpression "\"ü\" + \"\\q\" + \"\\w\"" =
        .error ⟨"\"ü\" + \"\\q\" + \"\\w\"", .invalidEscape offset mark⟩ ∧
      Rule.singleExpression.Tree "\"ü\" + \"\\q\" + \"\\w\"" root ∧
      root.FirstBadEscape offset mark := by
  refine ⟨?_, ?_, ?_⟩
  · obtain ⟨error, herror⟩ : ∃ error, parseExpression "1 +\n" = .error error :=
      exists_of_not_isOk (by decide +kernel)
    exact ⟨error, herror, (errors_point "1 +\n" none).2.1 error herror⟩
  · obtain ⟨error, herror⟩ : ∃ error, parseProgram "f() = 1" none = .error error :=
      exists_of_not_isOk (by decide +kernel)
    exact ⟨error, herror, (errors_point "f() = 1" none).1 error herror⟩
  · obtain ⟨next, root, attempts, hreply, htest⟩ := @Reply.exists_of_leaves
      (fun root => root.all.all (·.rule != .assignment) && root.all.any fun literal =>
        literal.rule == .string && literal.children.any (·.text == "\\q"))
      (Rule.singleExpression.readText "\"ü\" + \"\\q\" + \"\\w\"") (by decide +kernel)
    obtain ⟨hnone, hany⟩ := Bool.and_eq_true_iff.mp htest
    obtain ⟨literal, hliteral, hfound⟩ := List.any_eq_true.mp hany
    obtain ⟨hrule, hcontent⟩ := Bool.and_eq_true_iff.mp hfound
    obtain ⟨content, hmem, htext⟩ := List.any_eq_true.mp hcontent
    obtain ⟨offset, mark, hrefused, hfirst⟩ := ((errors_point _ none).2.2 root
      (fun assignment hassignment target hassigns => absurd hassigns.1
        (by simpa using List.all_eq_true.mp hnone assignment hassignment))
      ⟨content.start.offset, 'q', literal, hliteral, eq_of_beq hrule, content, hmem, [], [],
        by rw [eq_of_beq htext]; rfl, .nil, by decide, rfl⟩).2 ⟨next, attempts, hreply⟩
    exact ⟨root, offset, mark, hrefused, ⟨next, attempts, hreply⟩, hfirst⟩

end Kestrel
