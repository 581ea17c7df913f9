import Kestrel.Proofs.Grammar.Termination
import Kestrel.Proofs.Grammar.Word
import Kestrel.Proofs.Source.Comment

/-!
# Expressions among the statements

An expression is the last kind of statement that is tried. Where an expression is all that is left
of a text, none of the others matches: those that start with a keyword do not since no expression
starts with one of these, and an assignment or a method would need a mark after its first part at
which the expression could not go on, and would have ended too early.
-/

namespace Kestrel

/-- The kinds of statements that are tried before an expression. -/
def Rule.otherStatements : List Rule :=
  [varDeclaration, functionDeclaration, structDeclaration, methodDeclaration, ifStatement,
    loopStatement, forStatement, tryStatement, returnStatement, breakStatement, continueStatement,
    importStatement, assignment]

/-- The keyword that a statement starts with, but for functions, which are values too. -/
def Rule.leadingWord? : Rule → Option String
  | varDeclaration => some "var"
  | structDeclaration => some "struct"
  | ifStatement => some "if"
  | loopStatement => some "loop"
  | forStatement => some "for"
  | tryStatement => some "try"
  | returnStatement => some "return"
  | breakStatement => some "break"
  | continueStatement => some "continue"
  | importStatement => some "import"
  | _ => none

/-- Of the other statements three start with no keyword of their own. -/
theorem Rule.leadingWord?_eq_none : ∀ rule ∈ otherStatements, rule.leadingWord? = none →
    rule = functionDeclaration ∨ rule = methodDeclaration ∨ rule = assignment := by
  decide

/-- The reserved words that an expression may start with. -/
def expressionWords : List String := ["true", "false", "nothing", "fn", "not"]

/-- Whether a text goes on with a mark that comes after the first part of an assignment or of a
method: none of them goes on with an expression. -/
def endsExpression : List Char → Bool
  | '-' :: '>' :: _ | '+' :: '=' :: _ | '-' :: '=' :: _ | '*' :: '=' :: _ | '/' :: '=' :: _ => true
  | '=' :: rest => rest.head? ≠ some '='
  | _ => false

namespace Reads

variable {mode : Mode} {cursor next last : Cursor} {nodes : List Node} {verdict : Verdict}
  {rule : Rule} {patterns : List Pattern} {pattern : Pattern} {mark : Char} {word : String}

/-- Of a choice that matches one pattern does. -/
theorem oneOf_inv (hreads : Reads mode (.oneOf patterns) cursor (some (nodes, last))) :
    ∃ pattern ∈ patterns, Reads mode pattern cursor (some (nodes, last)) := by
  induction patterns with
  | nil =>
    obtain ⟨hrefused, -, -⟩ := hreads.absent_inv
    exact absurd (hrefused.word_isSome.mpr List.nil_prefix) (by simp)
  | cons pattern patterns ih =>
    cases patterns with
    | nil => exact ⟨pattern, List.mem_cons_self .., hreads⟩
    | cons second others =>
      rcases hreads.alt_inv with hinside | ⟨-, hinside⟩
      · exact ⟨pattern, List.mem_cons_self .., hinside⟩
      · obtain ⟨found, hmem, hfound⟩ := ih hinside
        exact ⟨found, List.mem_cons_of_mem _ hmem, hfound⟩

/-- If all patterns before it are refused, the last pattern of a choice decides. -/
theorem oneOf_last (hrefused : ∀ pattern ∈ patterns, Reads mode pattern cursor none)
    (hreads : Reads mode pattern cursor verdict) :
    Reads mode (.oneOf (patterns ++ [pattern])) cursor verdict := by
  induction patterns with
  | nil => exact hreads
  | cons first patterns ih =>
    obtain ⟨hfirst, hothers⟩ := List.forall_mem_cons.mp hrefused
    have hlast := ih hothers
    cases patterns with
    | nil => exact hfirst.altSecond hlast
    | cons second others => exact hfirst.altSecond hlast

/-- Where a mark is read, it is the character that comes next. -/
theorem head_of_mark (hreads : Reads mode (.word [mark]) cursor (some (nodes, last))) :
    cursor.rest.head? = some mark := by
  have hsome := hreads.mark_isSome
  cases hrest : cursor.rest.head? with
  | none =>
    rw [hrest] at hsome
    cases hsome
  | some c =>
    rw [hrest, Option.any_some] at hsome
    rw [eq_of_beq hsome.symm]

/-- Where a text is read, it comes next, and then what is left. -/
theorem rest_of_text (hreads : Reads mode (.text word) cursor (some (nodes, last))) :
    cursor.rest = word.toList ++ last.rest :=
  Cursor.rest_of_word? hreads.word_inv.1

/-- Where a mark is refused, it does not come next. -/
theorem head_of_refused (hreads : Reads mode (.word [mark]) cursor none) :
    cursor.rest.head? ≠ some mark := by
  intro hhead
  have hnone := hreads.mark_isSome
  rw [hhead] at hnone
  simp at hnone

/-- A rule that is a keyword is read where the name is the keyword. -/
theorem name_of_rule (hdefinition : rule.definition = ⟨.token, .keyword word⟩)
    (hreserved : word ∈ reservedWords)
    (hreads : Reads .spaced (.rule rule) cursor (some (nodes, last))) : cursor.name = word := by
  obtain ⟨children, hinside, -⟩ := hreads.rule_inv (by decide)
  rw [hdefinition] at hinside
  exact hinside.name_of_keyword (isNameChar_of_mem_reserved word hreserved)

/-- A statement that starts with a word starts with this word as a name. -/
theorem name_of_statement (hleads : rule.leadingWord? = some word)
    (hreads : Reads .spaced (.rule rule) cursor (some (nodes, last))) : cursor.name = word := by
  obtain ⟨children, hinside, -⟩ := hreads.rule_inv (by decide)
  cases rule <;> cases hleads
  case breakStatement | continueStatement => exact name_of_rule rfl (by decide) hinside
  all_goals
    obtain ⟨_, _, _, hword, -, -⟩ := hinside.seq_inv
    exact name_of_rule rfl (by decide) hword

end Reads

/-- How a statement starts that is no expression. -/
inductive StartsStatement (cursor : Cursor) : Rule → Prop
  | keyword {rule : Rule} {word : String} (hleads : rule.leadingWord? = some word)
      (hreserved : word ∈ reservedWords) (hfree : word ∉ expressionWords)
      (hname : cursor.name = word) : StartsStatement cursor rule
  | function {words : List Node} {middle : Cursor} {found : List Node × Cursor}
      (hword : Reads .spaced (.rule .kwFn) cursor (some (words, middle)))
      (hname : Reads .spaced (.rule .identifier) middle.skipGap (some found)) :
      StartsStatement cursor .functionDeclaration
  | method {names : List Node} {middle : Cursor} {found : List Node × Cursor}
      (hname : Reads .spaced (.rule .identifier) cursor (some (names, middle)))
      (harrow : Reads .spaced (.text "->") middle.skipGap (some found)) :
      StartsStatement cursor .methodDeclaration
  | assignment {operand : List Node} {middle : Cursor} {found : List Node × Cursor}
      (htarget : Reads .spaced (.rule .postfixExpr) cursor (some (operand, middle)))
      (hoperator : Reads .spaced .assignOp middle.skipGap (some found)) :
      StartsStatement cursor .assignment

namespace Reads

/-- A statement that is no expression starts as its rule says. -/
theorem startsStatement (hother : rule ∈ Rule.otherStatements)
    (hreads : Reads .spaced (.rule rule) cursor (some (nodes, last))) :
    StartsStatement cursor rule := by
  cases hleads : rule.leadingWord? with
  | some word =>
    have hword : word ∈ reservedWords ∧ word ∉ expressionWords := by
      cases rule <;> cases hleads <;> decide
    exact .keyword hleads hword.1 hword.2 (hreads.name_of_statement hleads)
  | none =>
    obtain ⟨_, hbody, -⟩ := hreads.rule_inv (by decide)
    rcases Rule.leadingWord?_eq_none rule hother hleads with rfl | rfl | rfl <;>
      obtain ⟨_, _, _, hfirst, hothers, -⟩ := hbody.seq_inv <;>
      obtain ⟨_, _, _, hsecond, -, -⟩ := hothers.seq_inv
    · exact .function hfirst hsecond
    · exact .method hfirst hsecond
    · exact .assignment hfirst hsecond

/-- A statement that is no expression is one of the others. -/
theorem anyStatement_inv (hreads : Reads .spaced .anyStatement cursor (some (nodes, last))) :
    (∃ rule ∈ Rule.otherStatements, Reads .spaced (.rule rule) cursor (some (nodes, last))) ∨
      ∃ children, Reads .spaced (.rule .expression) cursor (some (children, last)) := by
  obtain ⟨pattern, hmem, hform⟩ := hreads.oneOf_inv
  obtain ⟨rule, hkind, rfl⟩ : ∃ rule ∈ Rule.otherStatements ++ [.expressionStatement],
      Pattern.rule rule = pattern := List.mem_map.mp hmem
  rcases List.mem_append.mp hkind with hother | hexpression
  · exact .inl ⟨rule, hother, hform⟩
  · obtain rfl := List.mem_singleton.mp hexpression
    obtain ⟨children, hbody, -⟩ := hform.rule_inv (by decide)
    exact .inr ⟨children, hbody⟩

end Reads

/-- How a primary expression starts. -/
inductive StartsPrimary (cursor : Cursor) (nodes : List Node) (next : Cursor) : Prop
  | mark {c : Char} (hhead : cursor.rest.head? = some c) (hnoName : isNameStart c = false)
      (hnoMinus : c ≠ '-')
  | literal (hname : cursor.name ∈ ["true", "false", "nothing"])
  | function (hreads : Reads .spaced (.rule .functionLiteral) cursor (some (nodes, next)))
  | struct (hreads : Reads .spaced (.rule .structLiteral) cursor (some (nodes, next)))
  | identifier (hreads : Reads .spaced (.rule .identifier) cursor (some (nodes, next)))

/-- No name starts with a digit. -/
theorem isNameStart_of_digit {c : Char} (hlow : '0' ≤ c) (hhigh : c ≤ '9') :
    isNameStart c = false := by
  have hlow' : 48 ≤ c.toNat := hlow
  have hhigh' : c.toNat ≤ 57 := hhigh
  simp only [isNameStart, Bool.or_eq_false_iff, Bool.and_eq_false_iff, decide_eq_false_iff_not,
    beq_eq_false_iff_ne]
  refine ⟨⟨.inl fun h => ?_, .inl fun h => ?_⟩, ?_⟩
  · have : 97 ≤ c.toNat := h
    omega
  · have : 65 ≤ c.toNat := h
    omega
  · rintro rfl
    contradiction

namespace Reads

variable {cursor next last : Cursor} {nodes : List Node}

/-- A primary expression starts in one of the ways there are. -/
theorem startsPrimary (hreads : Reads .spaced .primaryExpr cursor (some (nodes, next))) :
    StartsPrimary cursor nodes next := by
  obtain ⟨pattern, hmem, hinside⟩ := hreads.oneOf_inv
  simp only [List.mem_cons, List.not_mem_nil, or_false] at hmem
  rcases hmem with rfl | rfl | rfl | rfl | rfl | rfl | rfl | rfl | rfl | rfl
  · -- a number
    obtain ⟨_, hbody, -⟩ := hinside.rule_inv (by decide)
    obtain ⟨_, _, _, hdigits, -, -⟩ := hbody.seq_inv
    obtain ⟨_, _, _, hdigit, -, -⟩ := hdigits.seq_inv
    have hsome := hdigit.range_isSome
    cases hhead : cursor.rest.head? with
    | none =>
      rw [hhead] at hsome
      cases hsome
    | some c =>
      rw [hhead, Option.any_some] at hsome
      obtain ⟨hlow, hhigh⟩ := Bool.and_eq_true_iff.mp hsome.symm
      refine .mark hhead
        (isNameStart_of_digit (of_decide_eq_true hlow) (of_decide_eq_true hhigh)) ?_
      rintro rfl
      exact absurd hlow (by decide)
  · -- a string
    obtain ⟨_, hbody, -⟩ := hinside.rule_inv (by decide)
    obtain ⟨_, _, _, hquote, -, -⟩ := hbody.seq_inv
    exact .mark hquote.head_of_mark (by decide) (by decide)
  · -- a boolean
    obtain ⟨_, hbody, -⟩ := hinside.rule_inv (by decide)
    obtain ⟨_, _, _, hword, hends, -⟩ := hbody.seq_inv
    rcases hword.alt_inv with hword | ⟨-, hword⟩
    · have hname : cursor.name = "true" :=
        name_of_word (isNameChar_of_mem_reserved _ (by decide)) hword hends rfl
      exact .literal (by simp [hname])
    · have hname : cursor.name = "false" :=
        name_of_word (isNameChar_of_mem_reserved _ (by decide)) hword hends rfl
      exact .literal (by simp [hname])
  · have hname : cursor.name = "nothing" := name_of_rule rfl (by decide) hinside
    exact .literal (by simp [hname])
  · exact .function hinside
  · exact .struct hinside
  · exact .identifier hinside
  · -- an array
    obtain ⟨_, hbody, -⟩ := hinside.rule_inv (by decide)
    obtain ⟨_, _, _, hopening, -, -⟩ := hbody.seq_inv
    exact .mark hopening.head_of_mark (by decide) (by decide)
  · -- a dictionary
    obtain ⟨_, hbody, -⟩ := hinside.rule_inv (by decide)
    obtain ⟨_, _, _, hopening, -, -⟩ := hbody.seq_inv
    exact .mark hopening.head_of_mark (by decide) (by decide)
  · -- an expression in parentheses
    obtain ⟨_, _, _, hopening, -, -⟩ := hinside.seq_inv
    exact .mark hopening.head_of_mark (by decide) (by decide)

/-- A function literal starts with the word `fn`. -/
theorem name_of_functionLiteral
    (hreads : Reads .spaced (.rule .functionLiteral) cursor (some (nodes, next))) :
    cursor.name = "fn" := by
  obtain ⟨_, hbody, -⟩ := hreads.rule_inv (by decide)
  obtain ⟨_, _, _, hword, -, -⟩ := hbody.seq_inv
  exact name_of_rule rfl (by decide) hword

/-- A struct literal starts with an identifier, and after it comes a dot or a brace. -/
theorem structLiteral_inv
    (hreads : Reads .spaced (.rule .structLiteral) cursor (some (nodes, next))) :
    ∃ name middle, Reads .spaced (.rule .identifier) cursor (some (name, middle)) ∧
      middle.skipGap.rest.head? ∈ [some '.', some '\x7b'] := by
  obtain ⟨_, hbody, -⟩ := hreads.rule_inv (by decide)
  obtain ⟨_, _, _, hpath, hfields, -⟩ := hbody.seq_inv
  obtain ⟨_, hpath, -⟩ := hpath.rule_inv (by decide)
  obtain ⟨name, middle, _, hname, hmembers, -⟩ := hpath.seq_inv
  refine ⟨name, middle, hname, ?_⟩
  rcases hmembers.many_inv with ⟨-, -, rfl⟩ | ⟨found, hmember⟩
  · obtain ⟨_, _, _, hopening, -, -⟩ := hfields.seq_inv
    have hhead : middle.skipGap.skipGap.rest.head? = some '\x7b' := hopening.head_of_mark
    rw [Cursor.skipGap_skipGap] at hhead
    simp [hhead]
  · obtain ⟨_, _, _, hdot, -, -⟩ := hmember.seq_inv
    have hhead : middle.skipGap.rest.head? = some '.' := hdot.head_of_mark
    simp [hhead]

end Reads

/-- A primary expression starts with a mark, or with a name of some kind. -/
theorem StartsPrimary.mark_or_name {cursor next : Cursor} {nodes : List Node}
    (hstarts : StartsPrimary cursor nodes next) :
    (∃ c, cursor.rest.head? = some c ∧ isNameStart c = false ∧ c ≠ '-') ∨
      cursor.rest.head?.any isNameStart ∧
        (cursor.name ∈ reservedWords → cursor.name ∈ ["true", "false", "nothing", "fn"]) := by
  have hliteral : ∀ word ∈ ["true", "false", "nothing", "fn"], word ∈ reservedWords := by
    decide
  have hreserved (hnamed : cursor.name ∈ ["true", "false", "nothing", "fn"]) :
      cursor.rest.head?.any isNameStart ∧
        (cursor.name ∈ reservedWords → cursor.name ∈ ["true", "false", "nothing", "fn"]) :=
    ⟨Cursor.isNameStart_of_name (hliteral _ hnamed), fun _ => hnamed⟩
  have hidentifier {name : List Node} {middle : Cursor}
      (hreads : Reads .spaced (.rule .identifier) cursor (some (name, middle))) :
      cursor.rest.head?.any isNameStart ∧
        (cursor.name ∈ reservedWords → cursor.name ∈ ["true", "false", "nothing", "fn"]) :=
    ⟨hreads.name_of_identifier.2, fun h => absurd h hreads.name_of_identifier.1⟩
  cases hstarts with
  | mark hhead hnoName hnoMinus => exact .inl ⟨_, hhead, hnoName, hnoMinus⟩
  | literal hname => exact .inr (hreserved (List.mem_append_left ["fn"] hname))
  | function hreads => exact .inr (hreserved (by simp [hreads.name_of_functionLiteral]))
  | struct hreads =>
    obtain ⟨_, _, hname', -⟩ := hreads.structLiteral_inv
    exact .inr (hidentifier hname')
  | identifier hreads => exact .inr (hidentifier hreads)

/-- A primary expression that starts with a reserved word starts with one of a few. -/
theorem StartsPrimary.name_mem {cursor next : Cursor} {nodes : List Node}
    (hstarts : StartsPrimary cursor nodes next) (hreserved : cursor.name ∈ reservedWords) :
    cursor.name ∈ ["true", "false", "nothing", "fn"] := by
  rcases hstarts.mark_or_name with ⟨c, hhead, hc, -⟩ | ⟨-, hname⟩
  · have hstart := Cursor.isNameStart_of_name hreserved
    rw [hhead, Option.any_some, hc] at hstart
    exact absurd hstart (by decide)
  · exact hname hreserved

namespace Reads

variable {cursor next last middle : Cursor} {nodes name : List Node} {found : List Node × Cursor}
  {mark : Char}

/-- An operator in front of an operand is a minus or the word for negation. -/
theorem prefixOp_inv (hreads : Reads .spaced .prefixOp cursor (some found)) :
    cursor.rest.head? = some '-' ∨ cursor.name = "not" := by
  rcases hreads.alt_inv with hinside | ⟨-, hinside⟩
  · obtain ⟨_, hbody, -⟩ := hinside.rule_inv (by decide)
    obtain ⟨_, _, _, hmark, -, -⟩ := hbody.seq_inv
    exact .inl hmark.head_of_mark
  · exact .inr (name_of_rule rfl (by decide) hinside)

/-- If a name starts where such an operator comes, it is the word. -/
theorem name_of_prefixOp (hstart : cursor.rest.head?.any isNameStart)
    (hreads : Reads .spaced .prefixOp cursor (some found)) : cursor.name = "not" := by
  rcases hreads.prefixOp_inv with hminus | hnot
  · rw [hminus] at hstart
    exact absurd hstart (by decide)
  · exact hnot

/-- An operand starts with a primary expression. -/
theorem operand_startsPrimary
    (hreads : Reads .spaced (.rule .postfixExpr) cursor (some (nodes, next))) :
    ∃ first middle, StartsPrimary cursor first middle := by
  obtain ⟨_, hbody, -⟩ := hreads.rule_inv (by decide)
  obtain ⟨_, _, _, hprimary, -, -⟩ := hbody.seq_inv
  exact ⟨_, _, hprimary.startsPrimary⟩

/-- Where an operand starts, there is no operator in front of one. -/
theorem not_prefixOp (hreads : Reads .spaced (.rule .postfixExpr) cursor (some (nodes, next))) :
    ¬Reads .spaced .prefixOp cursor (some found) := by
  intro hoperator
  obtain ⟨_, _, hprimary⟩ := hreads.operand_startsPrimary
  rcases hoperator.prefixOp_inv with hminus | hnot
  · rcases hprimary.mark_or_name with ⟨c, hhead, -, hc⟩ | ⟨hstart, -⟩
    · exact hc (Option.some.inj (hhead.symm.trans hminus))
    · rw [hminus] at hstart
      exact absurd hstart (by decide)
  · have hmem := hprimary.name_mem (by rw [hnot]; decide)
    rw [hnot] at hmem
    exact absurd hmem (by decide)

/-- What follows a primary expression starts with a mark. -/
theorem head_of_postfixOp (hreads : Reads .spaced .postfixOp cursor (some (nodes, next))) :
    cursor.rest.head? ∈ [some '(', some '.', some '['] := by
  obtain ⟨pattern, hmem, hinside⟩ := hreads.oneOf_inv
  simp only [List.mem_cons, List.not_mem_nil, or_false] at hmem ⊢
  rcases hmem with rfl | rfl | rfl
  · obtain ⟨_, hbody, -⟩ := hinside.rule_inv (by decide)
    obtain ⟨_, _, _, hmark, -, -⟩ := hbody.seq_inv
    exact .inl hmark.head_of_mark
  · obtain ⟨_, hbody, -⟩ := hinside.rule_inv (by decide)
    obtain ⟨_, _, _, hmark, -, -⟩ := hbody.seq_inv
    exact .inr (.inl hmark.head_of_mark)
  · obtain ⟨_, hbody, -⟩ := hinside.rule_inv (by decide)
    obtain ⟨_, _, _, hmark, -, -⟩ := hbody.seq_inv
    exact .inr (.inr hmark.head_of_mark)

/-- The operator for differences is no front part of the operator of an assignment or of an
arrow. -/
theorem goes_on_of_minus
    (hreads : Reads .token (.seq (.word ['-']) (.absent (.alt (.word ['=']) (.word ['>'])))) cursor
      (some (nodes, next))) : endsExpression cursor.rest = false := by
  obtain ⟨_, middle, _, hmark, habsent, -⟩ := hreads.seq_inv
  obtain ⟨hrefused, -, -⟩ := habsent.absent_inv
  have hrest : cursor.rest = '-' :: middle.rest := Cursor.rest_of_word? hmark.word_inv.1
  cases hrefused with
  | altSecond hfirst hsecond =>
    have hequal : middle.rest.head? ≠ some '=' := hfirst.head_of_refused
    have hgreater : middle.rest.head? ≠ some '>' := hsecond.head_of_refused
    rw [hrest]
    cases hothers : middle.rest <;> simp_all [endsExpression]

/-- An arithmetic operator is no front part of the operator of an assignment. -/
theorem goes_on_of_mark (hoperator : mark ∈ ['+', '*', '/'])
    (hreads : Reads .token (.seq (.word [mark]) (.absent (.word ['=']))) cursor
      (some (nodes, next))) : endsExpression cursor.rest = false := by
  obtain ⟨_, middle, _, hmark, habsent, -⟩ := hreads.seq_inv
  obtain ⟨hrefused, -, -⟩ := habsent.absent_inv
  have hrest : cursor.rest = mark :: middle.rest := Cursor.rest_of_word? hmark.word_inv.1
  have hnext : middle.rest.head? ≠ some '=' := hrefused.head_of_refused
  simp only [List.mem_cons, List.not_mem_nil, or_false] at hoperator
  rw [hrest]
  rcases hoperator with rfl | rfl | rfl <;>
    cases hothers : middle.rest <;> simp_all [endsExpression]

/-- A word decides whether expressions end where it comes. -/
theorem endsExpression_of_word {mode : Mode} {letters : List Char} {ends : Bool}
    (hword : ∀ rest, endsExpression (letters ++ rest) = ends)
    (hreads : Reads mode (.word letters) cursor (some (nodes, next))) :
    endsExpression cursor.rest = ends := by
  rw [Cursor.rest_of_word? hreads.word_inv.1]
  exact hword next.rest

/-- Where an operator between operands comes, the expression goes on. -/
theorem goes_on_of_infixOp (hreads : Reads .spaced .infixOp cursor (some (nodes, next))) :
    endsExpression cursor.rest = false := by
  obtain ⟨pattern, hmem, hinside⟩ := hreads.oneOf_inv
  have hname' {word : String} (hletters : ∀ rest, endsExpression (word.toList ++ rest) = false)
      (hname : cursor.name = word) : endsExpression cursor.rest = false := by
    obtain ⟨rest, hrest, -⟩ := Cursor.rest_eq_of_name hname
    rw [hrest]
    exact hletters rest
  simp only [List.mem_cons, List.not_mem_nil, or_false] at hmem
  rcases hmem with rfl | rfl | hmem
  · exact hname' (fun _ => rfl) (name_of_rule rfl (by decide) hinside)
  · exact hname' (fun _ => rfl) (name_of_rule rfl (by decide) hinside)
  rcases hmem with rfl | rfl | rfl | rfl | rfl | rfl | rfl | rfl | rfl | rfl | rfl <;>
    obtain ⟨_, hbody, -⟩ := hinside.rule_inv (by decide)
  · exact endsExpression_of_word (fun _ => rfl) hbody
  · exact endsExpression_of_word (fun _ => rfl) hbody
  · exact endsExpression_of_word (fun _ => rfl) hbody
  · exact endsExpression_of_word (fun _ => rfl) hbody
  · exact endsExpression_of_word (fun _ => rfl) hbody
  · exact endsExpression_of_word (fun _ => rfl) hbody
  · exact goes_on_of_mark (by decide) hbody
  · exact goes_on_of_minus hbody
  · exact goes_on_of_mark (by decide) hbody
  · exact goes_on_of_mark (by decide) hbody
  · exact endsExpression_of_word (fun _ => rfl) hbody

/-- After its first operand an expression ends where a mark comes that ends it. -/
theorem expression_inv (hsettled : cursor.skipGap = cursor)
    (hreads : Reads .spaced (.rule .expression) cursor (some (nodes, last))) :
    (∃ found, Reads .spaced .prefixOp cursor (some found)) ∨
      ∃ operand middle, Reads .spaced (.rule .postfixExpr) cursor (some (operand, middle)) ∧
        (endsExpression middle.skipGap.rest → last = middle.skipGap) := by
  obtain ⟨_, hbody, -⟩ := hreads.rule_inv (by decide)
  obtain ⟨_, later, _, hbinary, htail, -⟩ := hbody.seq_inv
  obtain ⟨_, hbinary, -⟩ := hbinary.rule_inv (by decide)
  obtain ⟨_, start, _, hprefixes, hrow, -⟩ := hbinary.seq_inv
  rcases hprefixes.many_inv with ⟨-, -, rfl⟩ | hoperator
  · right
    obtain ⟨operand, middle, _, hoperand, hothers, -⟩ := hrow.seq_inv
    change Reads .spaced (.rule .postfixExpr) start.skipGap (some (operand, middle)) at hoperand
    rw [hsettled] at hoperand
    refine ⟨operand, middle, hoperand, fun hends => ?_⟩
    have hlater : later = middle.skipGap := by
      rcases hothers.many_inv with ⟨-, -, hlater⟩ | ⟨⟨_, _⟩, hround⟩
      · exact hlater
      · obtain ⟨_, _, _, hinfix, -, -⟩ := hround.seq_inv
        have hgoes : endsExpression middle.skipGap.rest = false := hinfix.goes_on_of_infixOp
        rw [hgoes] at hends
        exact absurd hends (by decide)
    subst hlater
    rcases htail.opt_inv with hternary | ⟨-, -, hlast⟩
    · obtain ⟨_, hbody, -⟩ := hternary.rule_inv (by decide)
      obtain ⟨_, _, _, hmark, -, -⟩ := hbody.seq_inv
      have hhead : middle.skipGap.skipGap.rest.head? = some '?' := hmark.head_of_mark
      rw [Cursor.skipGap_skipGap] at hhead
      obtain ⟨rest, hrest⟩ := List.head?_eq_some_iff.mp hhead
      rw [hrest] at hends
      cases hends
    · exact hlast.trans middle.skipGap_skipGap
  · exact .inl hoperator

/-- Where an identifier stands in front of an arrow, the operand is the identifier. -/
theorem operand_of_arrow
    (hidentifier : Reads .spaced (.rule .identifier) cursor (some (name, middle)))
    (harrow : middle.skipGap.rest.head? = some '-')
    (hoperand : Reads .spaced (.rule .postfixExpr) cursor (some (nodes, next))) :
    next = middle.skipGap := by
  obtain ⟨hreserved, hstart⟩ := hidentifier.name_of_identifier
  obtain ⟨_, hbody, -⟩ := hoperand.rule_inv (by decide)
  obtain ⟨_, later, _, hprimary, hchain, -⟩ := hbody.seq_inv
  have hlater : later = middle := by
    cases hprimary.startsPrimary with
    | mark hhead hnoName =>
      rw [hhead, Option.any_some, hnoName] at hstart
      exact absurd hstart (by decide)
    | literal hname =>
      have hliteral : ∀ word ∈ ["true", "false", "nothing"], word ∈ reservedWords := by
        decide
      exact absurd (hliteral _ hname) hreserved
    | function hreads =>
      rw [hreads.name_of_functionLiteral] at hreserved
      exact absurd (by decide) hreserved
    | struct hreads =>
      obtain ⟨_, _, hname, hhead'⟩ := hreads.structLiteral_inv
      cases hname.unique hidentifier
      rw [harrow] at hhead'
      exact absurd hhead' (by decide)
    | identifier hreads =>
      cases hreads.unique hidentifier
      rfl
  subst hlater
  rcases hchain.many_inv with ⟨-, -, hnext⟩ | ⟨⟨_, _⟩, hround⟩
  · exact hnext
  · have hhead' : later.skipGap.rest.head? ∈ [some '(', some '.', some '['] :=
      hround.head_of_postfixOp
    rw [harrow] at hhead'
    exact absurd hhead' (by decide)

/-- The first operator of an assignment stands where no expression goes on. -/
theorem ends_of_assignOp (hreads : Reads .spaced .assignOp cursor (some (nodes, next))) :
    endsExpression cursor.rest := by
  obtain ⟨pattern, hmem, hinside⟩ := hreads.oneOf_inv
  simp only [List.mem_cons, List.not_mem_nil, or_false] at hmem
  rcases hmem with rfl | rfl | rfl | rfl | rfl <;>
    obtain ⟨_, hbody, -⟩ := hinside.rule_inv (by decide)
  · exact endsExpression_of_word (fun _ => rfl) hbody
  · exact endsExpression_of_word (fun _ => rfl) hbody
  · exact endsExpression_of_word (fun _ => rfl) hbody
  · exact endsExpression_of_word (fun _ => rfl) hbody
  · obtain ⟨_, middle, _, hmark, habsent, -⟩ := hbody.seq_inv
    obtain ⟨hrefused, -, -⟩ := habsent.absent_inv
    have hrest : cursor.rest = '=' :: middle.rest := hmark.rest_of_text
    have hnext : middle.rest.head? ≠ some '=' := hrefused.head_of_refused
    rw [hrest]
    exact decide_eq_true hnext

/-- An expression that starts with a reserved word starts with one of a few. -/
theorem name_of_expression (hsettled : cursor.skipGap = cursor)
    (hreads : Reads .spaced (.rule .expression) cursor (some (nodes, last)))
    (hreserved : cursor.name ∈ reservedWords) : cursor.name ∈ expressionWords := by
  rcases hreads.expression_inv hsettled with ⟨found, hoperator⟩ | ⟨operand, middle, hoperand, -⟩
  · have hnot := hoperator.name_of_prefixOp (Cursor.isNameStart_of_name hreserved)
    simp [hnot, expressionWords]
  · obtain ⟨_, _, hprimary⟩ := hoperand.operand_startsPrimary
    exact List.mem_append_left ["not"] (hprimary.name_mem hreserved)

end Reads

section Refusals

variable {cursor last : Cursor} {nodes : List Node} {rule : Rule}
  (hsettled : cursor.skipGap = cursor)
  (hreads : Reads .spaced (.rule .expression) cursor (some (nodes, last)))
include hsettled hreads

/-- After `fn` no name comes where an expression starts, which is a function without a name. -/
theorem not_reads_name_after_fn {words : List Node} {middle : Cursor}
    (hword : Reads .spaced (.rule .kwFn) cursor (some (words, middle)))
    (found : List Node × Cursor) :
    ¬Reads .spaced (.rule .identifier) middle.skipGap (some found) := by
  intro hidentifier
  have hnamed : middle.skipGap.rest.head?.any isNameStart := hidentifier.name_of_identifier.2
  have hname : cursor.name = "fn" := Reads.name_of_rule rfl (by decide) hword
  have hreserved : cursor.name ∈ reservedWords := by rw [hname]; decide
  have hstart := Cursor.isNameStart_of_name hreserved
  rcases hreads.expression_inv hsettled with ⟨_, hoperator⟩ | ⟨operand, next, hoperand, -⟩
  · exact absurd (hname.symm.trans (hoperator.name_of_prefixOp hstart)) (by decide)
  · obtain ⟨_, _, hprimary⟩ := hoperand.operand_startsPrimary
    cases hprimary with
    | mark hhead hnoName =>
      rw [hhead, Option.any_some, hnoName] at hstart
      exact absurd hstart (by decide)
    | literal hliteral =>
      rw [hname] at hliteral
      exact absurd hliteral (by decide)
    | function hfunction =>
      obtain ⟨_, hbody, -⟩ := hfunction.rule_inv (by decide)
      obtain ⟨_, _, _, hword', hothers, -⟩ := hbody.seq_inv
      cases hword'.unique hword
      obtain ⟨_, _, _, hparameters, -, -⟩ := hothers.seq_inv
      obtain ⟨_, hbody, -⟩ := hparameters.rule_inv (by decide)
      obtain ⟨_, _, _, hopening, -, -⟩ := hbody.seq_inv
      have hhead' : middle.skipGap.rest.head? = some '(' := hopening.head_of_mark
      rw [hhead'] at hnamed
      exact absurd hnamed (by decide)
    | struct hstruct =>
      obtain ⟨_, _, hidentifier, -⟩ := hstruct.structLiteral_inv
      exact hidentifier.name_of_identifier.1 hreserved
    | identifier hidentifier => exact hidentifier.name_of_identifier.1 hreserved

variable (hends : last.skipGap.rest = [])
include hends

/-- Where an expression is all that is left, no operand is followed by a mark at which expressions
end. -/
theorem goes_on_of_operand {operand : List Node} {middle : Cursor}
    (hfound : Reads .spaced (.rule .postfixExpr) cursor (some (operand, middle))) :
    endsExpression middle.skipGap.rest = false := by
  refine Bool.eq_false_iff.mpr fun hends' => ?_
  rcases hreads.expression_inv hsettled with ⟨_, hoperator⟩ | ⟨operand', middle', hoperand, hlast⟩
  · exact hfound.not_prefixOp hoperator
  · cases hoperand.unique hfound
    rw [hlast hends', Cursor.skipGap_skipGap] at hends
    rw [hends] at hends'
    cases hends'

/-- After a name no arrow comes where an expression is all that is left. -/
theorem not_reads_arrow_after_name {names : List Node} {middle : Cursor}
    (hidentifier : Reads .spaced (.rule .identifier) cursor (some (names, middle)))
    (found : List Node × Cursor) : ¬Reads .spaced (.text "->") middle.skipGap (some found) := by
  intro harrow
  have hrest : middle.skipGap.rest = '-' :: '>' :: found.2.rest := harrow.rest_of_text
  rcases hreads.expression_inv hsettled with ⟨_, hoperator⟩ | ⟨operand, next, hoperand, -⟩
  · obtain ⟨hreserved, hstart⟩ := hidentifier.name_of_identifier
    rw [hoperator.name_of_prefixOp hstart] at hreserved
    exact absurd (by decide) hreserved
  · have hgoes := goes_on_of_operand hsettled hreads hends hoperand
    rw [hidentifier.operand_of_arrow (by rw [hrest]; rfl) hoperand, Cursor.skipGap_skipGap,
      hrest] at hgoes
    cases hgoes

/-- Where an expression is all that is left of a text, every other statement is refused. -/
theorem otherStatement_refused (hother : rule ∈ Rule.otherStatements) :
    Reads .spaced (.rule rule) cursor none := by
  refine Rule.refused_of_no_match fun nodes next hstatement => ?_
  cases hstatement.startsStatement hother with
  | keyword hleads hreserved hfree hname =>
    rw [← hname] at hreserved hfree
    exact hfree (hreads.name_of_expression hsettled hreserved)
  | function hword hname => exact not_reads_name_after_fn hsettled hreads hword _ hname
  | method hname harrow => exact not_reads_arrow_after_name hsettled hreads hends hname _ harrow
  | assignment htarget hoperator =>
    have hends' := hoperator.ends_of_assignOp
    rw [goes_on_of_operand hsettled hreads hends htarget] at hends'
    exact absurd hends' (by decide)

/-- An expression that is all that is left of a text is read as a statement. -/
theorem reads_anyStatement :
    Reads .spaced .anyStatement cursor
      (some ([Rule.expressionStatement.nodeOf cursor last nodes], last)) := by
  have hrefused : ∀ pattern ∈ Rule.otherStatements.map Pattern.rule,
      Reads .spaced pattern cursor none := by
    intro pattern hmem
    obtain ⟨rule, hrule, rfl⟩ := List.mem_map.mp hmem
    exact otherStatement_refused hsettled hreads hends hrule
  have hexpression : Reads .spaced (.rule .expressionStatement) cursor
      (some ([Rule.expressionStatement.nodeOf cursor last nodes], last)) :=
    .node (by decide) hreads rfl
  exact Reads.oneOf_last hrefused hexpression

end Refusals

end Kestrel
