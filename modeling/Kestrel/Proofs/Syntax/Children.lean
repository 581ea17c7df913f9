import Kestrel.Proofs.Grammar.Reading
import Kestrel.Syntax.Assembly
import Mathlib.Data.List.Forall2

/-!
# The parts that trees are made of

The tree of a rule is made from its parts in order: of each rule the parts are listed here that are
asked for, and they are all that a match of the rule can leave.
-/

namespace Kestrel

namespace Rule

/-- The rules of the statements. -/
def statements : List Rule :=
  [varDeclaration, functionDeclaration, structDeclaration, methodDeclaration, ifStatement,
    loopStatement, forStatement, tryStatement, returnStatement, breakStatement, continueStatement,
    importStatement, assignment, expressionStatement]

/-- The rules of the expressions that need no operator. -/
def primaries : List Rule :=
  [number, string, boolean, nothing, functionLiteral, structLiteral, identifier, array, dictionary,
    expression]

/-- The rules of what may follow a primary expression. -/
def postfixes : List Rule := [callArguments, memberAccess, indexAccess]

/-- Operands with operators in front of them and between them; `due` tells whether an operand has
to come. -/
def Alternate : (due : Bool) → List Rule → Prop
  | true, [] => False
  | true, rule :: others =>
    if (Part.unaryOperator? rule).isSome then Alternate true others
    else rule = postfixExpr ∧ Alternate false others
  | false, [] => True
  | false, rule :: others => (Part.binaryOperator? rule).isSome ∧ Alternate true others

/-- The rules of the parts that a rule's tree is made from, in the order in which they are asked
for. Only the end of the input and the keywords of `break` and `continue` are not looked at. -/
def MadeOf : Rule → List Rule → Prop
  | program, parts => ∃ front, (∀ part ∈ front, part = statement) ∧ parts = front ++ [endOfInput]
  | singleExpression, parts => parts = [expression, endOfInput]
  | block, parts => ∀ part ∈ parts, part = statement
  | statement, parts => ∃ part ∈ statements, parts = [part]
  | varDeclaration, parts => parts = [kwVar, identifier, expression]
  | functionDeclaration, parts => parts = [kwFn, identifier, parameterList, block]
  | parameterList, parts => ∀ part ∈ parts, part = identifier
  | structDeclaration, parts =>
    ∃ names, (∀ part ∈ names, part = identifier) ∧ parts = kwStruct :: identifier :: names
  | methodDeclaration, parts => parts = [identifier, functionDeclaration]
  | ifStatement, parts =>
    ∃ clauses, (∀ part ∈ clauses, part = elseifClause ∨ part = elseClause) ∧
      parts = kwIf :: expression :: block :: clauses
  | elseifClause, parts =>
    parts = [kwElseif, expression, block] ∨ parts = [kwElse, kwIf, expression, block]
  | elseClause, parts => parts = [kwElse, block]
  | loopStatement, parts => parts = [kwLoop, block]
  | forStatement, parts =>
    parts = [kwFor, identifier, kwIn, expression, block] ∨
      parts = [kwFor, identifier, identifier, kwIn, expression, block]
  | tryStatement, parts =>
    ∃ caught ∈ [[], [catchClause]], ∃ last ∈ [[], [finallyClause]],
      parts = kwTry :: block :: (caught ++ last)
  | catchClause, parts => parts = [kwCatch, block]
  | finallyClause, parts => parts = [kwFinally, block]
  | returnStatement, parts => parts = [kwReturn] ∨ parts = [kwReturn, expression]
  | breakStatement, parts => parts = [kwBreak]
  | continueStatement, parts => parts = [kwContinue]
  | importStatement, parts =>
    parts = [kwImport, string] ∨ parts = [kwImport, string, kwAs, identifier]
  | assignment, parts =>
    ∃ operator, (Part.assignOperator? operator).isSome ∧
      parts = [postfixExpr, operator, expression]
  | expressionStatement, parts | sliceStart, parts | sliceEnd, parts => parts = [expression]
  | expression, parts => parts = [binaryExpr] ∨ parts = [binaryExpr, ternaryTail]
  | ternaryTail, parts => parts = [expression, expression]
  | binaryExpr, parts => Alternate true parts
  | postfixExpr, parts =>
    ∃ first ∈ primaries, ∃ chain, (∀ part ∈ chain, part ∈ postfixes) ∧ parts = first :: chain
  | callArguments, parts | array, parts => ∀ part ∈ parts, part = expression
  | memberAccess, parts => parts = [identifier]
  | indexAccess, parts => parts = [sliceBounds] ∨ parts = [expression]
  | sliceBounds, parts =>
    ∃ start ∈ [[], [sliceStart]], ∃ stop ∈ [[], [sliceEnd]], parts = start ++ stop
  | string, parts => parts = [stringContent]
  | functionLiteral, parts => parts = [kwFn, parameterList, block]
  | structLiteral, parts => ∃ fields, (∀ part ∈ fields, part = structField) ∧
      parts = structPath :: fields
  | structPath, parts => ∃ members, (∀ part ∈ members, part = identifier) ∧
      parts = identifier :: members
  | structField, parts => parts = [identifier, expression]
  | dictionary, parts => ∀ part ∈ parts, part = dictionaryEntry
  | dictionaryEntry, parts => ∃ key ∈ [string, number, identifier], parts = [key, expression]
  | _, parts => parts = []

end Rule

namespace Part

variable {holds : Part → Prop} {rule : Rule} {rules : List Rule} {part : Part} {parts : List Part}

/-- Parts of the rules in a list, one by one, of each of which something holds. -/
abbrev Listed (holds : Part → Prop) (rules : List Rule) (parts : List Part) : Prop :=
  List.Forall₂ (fun rule part => part.rule = rule ∧ holds part) rules parts

/-- Parts whose rules are known are taken apart by them. -/
theorem listed_of_map (hrules : parts.map Part.rule = rules) (hparts : ∀ part ∈ parts, holds part) :
    Listed holds rules parts := by
  subst hrules
  induction parts with
  | nil => exact .nil
  | cons part parts ih =>
    obtain ⟨hpart, hothers⟩ := List.forall_mem_cons.mp hparts
    exact .cons ⟨rfl, hpart⟩ (ih hothers)

/-- Every part is of a rule in the list. -/
theorem Listed.exists_rule (hlisted : Listed holds rules parts) (hpart : part ∈ parts) :
    ∃ rule ∈ rules, part.rule = rule ∧ holds part := by
  induction hlisted with
  | nil => cases hpart
  | cons hfirst _ ih =>
    rcases List.mem_cons.mp hpart with rfl | hpart
    · exact ⟨_, List.mem_cons_self .., hfirst⟩
    · obtain ⟨rule, hrule, hholds⟩ := ih hpart
      exact ⟨rule, List.mem_cons_of_mem _ hrule, hholds⟩

/-- If all rules in the list are the same, so are the rules of the parts. -/
theorem Listed.all_of (hlisted : Listed holds rules parts) (hrules : ∀ name ∈ rules, name = rule) :
    ∀ part ∈ parts, part.rule = rule ∧ holds part := by
  intro part hpart
  obtain ⟨name, hname, hpartRule, hholds⟩ := hlisted.exists_rule hpart
  exact ⟨hpartRule.trans (hrules name hname), hholds⟩

end Part

namespace Pattern

/-- The rules of which reading a pattern may leave nodes. -/
def leaves : Pattern → List Rule
  | .rule name => [name]
  | .seq first second | .alt first second => first.leaves ++ second.leaves
  | .opt body | .many body => body.leaves
  | .start | .finish | .word _ | .range _ _ | .anything | .absent _ => []

/-- What a pattern yields are rules that it mentions. -/
theorem Yields.mem_leaves {mode : Mode} {pattern : Pattern} {rules : List Rule}
    (hyields : pattern.Yields mode rules) : ∀ rule ∈ rules, rule ∈ pattern.leaves := by
  induction pattern generalizing rules with
  | start | finish | word | range | anything | absent => simp_all [Yields]
  | rule name =>
    rw [Yields] at hyields
    split at hyields <;> simp [hyields, leaves]
  | seq first second ihFirst ihSecond =>
    obtain ⟨front, back, hfront, hback, rfl⟩ := hyields
    intro rule hmember
    have hside := (List.mem_append.mp hmember).imp (ihFirst hfront _) (ihSecond hback _)
    exact List.mem_append.mpr hside
  | alt first second ihFirst ihSecond =>
    intro rule hmember
    exact List.mem_append.mpr (hyields.imp (ihFirst · _ hmember) (ihSecond · _ hmember))
  | opt body ih =>
    rcases hyields with rfl | hyields
    · simp
    · exact ih hyields
  | many body ih =>
    obtain ⟨rounds, hrounds, rfl⟩ := hyields
    intro rule hmember
    obtain ⟨round, hround, hmember⟩ := List.mem_flatten.mp hmember
    exact ih (hrounds round hround) rule hmember

/-- A pattern that leaves nodes of one rule only. -/
theorem Yields.all_eq {mode : Mode} {pattern : Pattern} {rules : List Rule} {name : Rule}
    (hyields : pattern.Yields mode rules) (hleaves : ∀ rule ∈ pattern.leaves, rule = name) :
    ∀ rule ∈ rules, rule = name :=
  fun rule hmember => hleaves rule (hyields.mem_leaves rule hmember)

end Pattern

namespace Rule

open Pattern

/-- Operators in front of an operand may come before what begins with an operand. -/
theorem Alternate.prefixes {front rules : List Rule} (halternate : Alternate true rules)
    (hyields : (Pattern.many prefixOp).Yields .spaced front) : Alternate true (front ++ rules) := by
  obtain ⟨rounds, hrounds, rfl⟩ := hyields
  induction rounds with
  | nil => exact halternate
  | cons round rounds ih =>
    have hothers := ih fun round h => hrounds round (List.mem_cons_of_mem _ h)
    rcases hrounds round (List.mem_cons_self ..) with rfl | rfl <;>
      simpa [Alternate, Part.unaryOperator?] using hothers

/-- An operand may come before what begins with an operator between operands. -/
theorem Alternate.operand {rules : List Rule} (halternate : Alternate false rules) :
    Alternate true (postfixExpr :: rules) := by
  simpa [Alternate, Part.unaryOperator?] using halternate

/-- The operators between operands are such operators. -/
theorem isSome_binaryOperator?_of_yields {rules : List Rule}
    (hyields : infixOp.Yields .spaced rules) :
    ∃ operator, rules = [operator] ∧ (Part.binaryOperator? operator).isSome := by
  simp only [infixOp, oneOf, Yields, reduceCtorEq, if_false] at hyields
  rcases hyields with rfl | rfl | rfl | rfl | rfl | rfl | rfl | rfl | rfl | rfl | rfl | rfl |
    rfl <;> exact ⟨_, rfl, rfl⟩

/-- In a chain of operators, operands and operators alternate. -/
theorem alternate_of_yields {rules : List Rule}
    (hyields : binaryExpr.definition.body.Yields .spaced rules) : Alternate true rules := by
  obtain ⟨front, _, hfront, ⟨_, _, rfl, ⟨rounds, hrounds, rfl⟩, rfl⟩, rfl⟩ := hyields
  refine Alternate.prefixes (Alternate.operand ?_) hfront
  induction rounds with
  | nil => trivial
  | cons round rounds ih =>
    have hothers := ih fun round h => hrounds round (List.mem_cons_of_mem _ h)
    obtain ⟨_, _, hoperator, ⟨front, _, hfront, rfl, rfl⟩, rfl⟩ :=
      hrounds round (List.mem_cons_self ..)
    obtain ⟨operator, rfl, hsome⟩ := isSome_binaryOperator?_of_yields hoperator
    refine ⟨hsome, ?_⟩
    simpa using Alternate.prefixes (Alternate.operand hothers) hfront

/-- Whatever a match of a rule leaves is what the rule's tree is made from. -/
theorem madeOf_of_yields {rule : Rule} {rules : List Rule}
    (hyields : rule.definition.body.Yields rule.definition.mode rules) : rule.MadeOf rules := by
  cases rule
  -- one kind of part, as often as it is there
  case block | parameterList | callArguments | array | dictionary =>
    exact hyields.all_eq (by decide)
  -- a fixed row of parts
  case varDeclaration | functionDeclaration | ternaryTail =>
    obtain ⟨_, _, rfl, ⟨_, _, rfl, ⟨_, _, rfl, rfl, rfl⟩, rfl⟩, rfl⟩ := hyields
    rfl
  case singleExpression | methodDeclaration | functionLiteral | structField | string =>
    obtain ⟨_, _, rfl, ⟨_, _, rfl, rfl, rfl⟩, rfl⟩ := hyields
    rfl
  case elseClause | loopStatement | catchClause | finallyClause | memberAccess =>
    obtain ⟨_, _, rfl, rfl, rfl⟩ := hyields
    rfl
  case breakStatement | continueStatement | expressionStatement | sliceStart | sliceEnd =>
    exact hyields
  -- rows with parts that may be missing or are one of several
  case statement =>
    obtain ⟨_, _, hstatement, hsemicolon, rfl⟩ := hyields
    simp only [anyStatement, oneOf, Yields] at hstatement
    obtain rfl : _ = [] := hsemicolon.elim id id
    rcases hstatement with rfl | rfl | rfl | rfl | rfl | rfl | rfl | rfl | rfl | rfl | rfl | rfl |
      rfl | rfl <;> exact ⟨_, by decide, rfl⟩
  case elseifClause =>
    obtain ⟨_, _, rfl | ⟨_, _, rfl, rfl, rfl⟩, ⟨_, _, rfl, rfl, rfl⟩, rfl⟩ := hyields
    · exact .inl rfl
    · exact .inr rfl
  case forStatement =>
    obtain ⟨_, _, rfl, ⟨_, _, rfl, ⟨_, _, hindex, ⟨_, _, rfl, ⟨_, _, rfl, rfl, rfl⟩, rfl⟩, rfl⟩,
      rfl⟩, rfl⟩ := hyields
    rcases hindex with rfl | ⟨_, _, rfl, rfl, rfl⟩
    · exact .inl rfl
    · exact .inr rfl
  case tryStatement =>
    obtain ⟨_, _, rfl, ⟨_, _, rfl, ⟨caught, last, hcaught, hlast, rfl⟩, rfl⟩, rfl⟩ := hyields
    refine ⟨caught, ?_, last, ?_, rfl⟩
    · rcases hcaught with rfl | rfl <;> decide
    · rcases hlast with rfl | rfl <;> decide
  case returnStatement | expression =>
    obtain ⟨_, _, rfl, rfl | rfl, rfl⟩ := hyields
    · exact .inl rfl
    · exact .inr rfl
  case importStatement =>
    obtain ⟨_, _, rfl, ⟨_, _, rfl, rfl | ⟨_, _, rfl, rfl, rfl⟩, rfl⟩, rfl⟩ := hyields
    · exact .inl rfl
    · exact .inr rfl
  case assignment =>
    obtain ⟨_, _, rfl, ⟨_, _, hoperator, rfl, rfl⟩, rfl⟩ := hyields
    rcases hoperator with rfl | rfl | rfl | rfl | rfl <;> exact ⟨_, rfl, rfl⟩
  case indexAccess =>
    obtain ⟨_, _, rfl, ⟨_, _, rfl | rfl, rfl, rfl⟩, rfl⟩ := hyields
    · exact .inl rfl
    · exact .inr rfl
  case sliceBounds =>
    obtain ⟨start, stop, hstart, ⟨_, _, rfl, hstop, rfl⟩, rfl⟩ := hyields
    refine ⟨start, ?_, stop, ?_, rfl⟩
    · rcases hstart with rfl | rfl <;> decide
    · rcases hstop with rfl | rfl <;> decide
  case dictionaryEntry =>
    obtain ⟨_, _, hkey, ⟨_, _, rfl, rfl, rfl⟩, rfl⟩ := hyields
    rcases hkey with rfl | rfl | rfl <;> exact ⟨_, by decide, rfl⟩
  -- rows that end with parts of one kind
  case program =>
    obtain ⟨_, _, rfl, ⟨front, _, hfront, rfl, rfl⟩, rfl⟩ := hyields
    exact ⟨front, hfront.eq_of_mem, rfl⟩
  case structDeclaration =>
    obtain ⟨_, _, rfl, ⟨_, _, rfl, ⟨_, _, rfl, ⟨names, _, hnames, rfl, rfl⟩, rfl⟩, rfl⟩, rfl⟩ :=
      hyields
    exact ⟨names, hnames.all_eq (by decide), by simp; rfl⟩
  case ifStatement =>
    obtain ⟨_, _, rfl, ⟨_, _, rfl, ⟨_, _, rfl, ⟨front, last, hfront, hlast, rfl⟩, rfl⟩, rfl⟩,
      rfl⟩ := hyields
    refine ⟨front ++ last, fun part hmember => ?_, rfl⟩
    rcases List.mem_append.mp hmember with hmember | hmember
    · exact .inl (hfront.eq_of_mem part hmember)
    · exact .inr (hlast.all_eq (by decide) part hmember)
  case structLiteral =>
    obtain ⟨_, _, rfl, ⟨_, _, rfl, ⟨fields, _, hfields, rfl, rfl⟩, rfl⟩, rfl⟩ := hyields
    exact ⟨fields, hfields.all_eq (by decide), by simp; rfl⟩
  case structPath =>
    obtain ⟨_, members, rfl, hmembers, rfl⟩ := hyields
    exact ⟨members, hmembers.all_eq (by decide), rfl⟩
  case postfixExpr =>
    obtain ⟨_, chain, hfirst, hchain, rfl⟩ := hyields
    have hpostfixes : ∀ part ∈ chain, part ∈ postfixes := hchain.mem_leaves
    simp only [primaryExpr, oneOf, Yields, inOrder, text] at hfirst
    rcases hfirst with rfl | rfl | rfl | rfl | rfl | rfl | rfl | rfl | rfl |
      ⟨_, _, rfl, ⟨_, _, rfl, rfl, rfl⟩, rfl⟩ <;>
      exact ⟨_, by decide, chain, hpostfixes, rfl⟩
  case binaryExpr => exact alternate_of_yields hyields
  -- nothing is left in a token and at the end of the input
  case endOfInput => exact hyields
  all_goals exact hyields.eq_nil

end Rule

end Kestrel
