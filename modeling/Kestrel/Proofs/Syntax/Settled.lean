import Kestrel.Proofs.Syntax.Children
import Kestrel.Proofs.Syntax.Grouping

/-!
# Faults of the source

Some faults are those of a source text: it does not follow the grammar, or says something that is
not allowed. The others would be faults of the tree that was read from it. What is assembled from
parts that mean what their rules are there for is settled: if it fails, the source is at fault. The
parts are looked at in the order of the text, so that of several faults the first is reported.
-/

namespace Kestrel

/-- The faults of a source text. -/
def SyntaxFault.OfSource : SyntaxFault → Prop
  | .expected _ _ | .invalidEscape _ _ | .notAssignable _ => True
  | .unexpectedRule _ _ _ | .invalidNumber _ _ => False

/-- Something is assembled that has a property, or the source is at fault. -/
def Settles {α : Type} (outcome : Assembled α) (property : α → Prop) : Prop :=
  match outcome with
  | .ok made => property made
  | .error fault => fault.OfSource

section Settles

variable {α β : Type} {property : β → Prop}

@[simp] theorem settles_ok {made : β} : Settles (.ok made) property ↔ property made := Iff.rfl

@[simp] theorem settles_pure {made : β} : Settles (pure made) property ↔ property made := Iff.rfl

@[simp] theorem settles_error {fault : SyntaxFault} :
    Settles (.error fault) property ↔ fault.OfSource := Iff.rfl

/-- What settles with a property settles with a weaker one. -/
theorem Settles.mono {outcome : Assembled β} {weaker : β → Prop}
    (hsettles : Settles outcome property) (hweakens : ∀ made, property made → weaker made) :
    Settles outcome weaker := by
  cases outcome with
  | ok made => exact hweakens made hsettles
  | error fault => exact hsettles

/-- Goes on from what was assembled first. -/
theorem Settles.bind {first : Assembled α} {given : α → Prop} {next : α → Assembled β}
    (hfirst : Settles first given) (hnext : ∀ made, given made → Settles (next made) property) :
    Settles (first >>= next) property := by
  cases first with
  | ok made => exact hnext made hfirst
  | error fault => exact hfirst

end Settles

/-- The text of a literal is decoded, or an escape in it is at fault. -/
theorem settles_resolveEscapes (offset : Nat) (decoded text : List Char) :
    Settles (resolveEscapes offset decoded text) fun _ => True := by
  fun_induction resolveEscapes offset decoded text with
  | case1 | case2 | case4 => trivial
  | case3 _ _ _ _ _ _ ih => exact ih
  | case5 _ _ _ _ _ _ ih => exact ih

/-- The rules whose matches are looked at as they are: they have no parts. -/
def Rule.isMark (rule : Rule) : Bool :=
  (rule.definition.mode = .token && rule ≠ .number) || rule = .endOfInput

/-- What a rule means: every rule is there for a kind of meaning. -/
def Meaning.Of (rule : Rule) (meaning : Meaning) : Prop :=
  match rule with
  | .program => ∃ value, meaning = .program value
  | .statement => ∃ value, meaning = .statement value
  | .varDeclaration | .structDeclaration | .methodDeclaration | .ifStatement | .loopStatement
  | .forStatement | .tryStatement | .returnStatement | .breakStatement | .continueStatement
  | .importStatement | .assignment | .expressionStatement =>
    ∃ value, meaning = .statementForm value
  | .functionDeclaration => ∃ value, meaning = .function value
  | .block | .elseClause | .catchClause | .finallyClause => ∃ value, meaning = .block value
  | .elseifClause => ∃ value, meaning = .branch value
  | .parameterList => ∃ value, meaning = .names value
  | .structPath => ∃ value, meaning = .names value ∧ value ≠ []
  | .singleExpression | .expression | .binaryExpr | .postfixExpr | .sliceStart | .sliceEnd
  | .functionLiteral | .structLiteral | .array | .dictionary => ∃ value, meaning = .expression value
  | .ternaryTail => ∃ thenValue elseValue, meaning = .ternaryTail thenValue elseValue
  | .callArguments => ∃ value, meaning = .callArguments value
  | .memberAccess => ∃ property, meaning = .memberAccess property
  | .indexAccess =>
    (∃ index, meaning = .indexAccess index) ∨ ∃ start stop, meaning = .sliceAccess start stop
  | .sliceBounds => ∃ start stop, meaning = .sliceAccess start stop
  | .number => ∃ value, meaning = .number value
  | .string => ∃ value, meaning = .string value
  | .structField => ∃ value, meaning = .structField value
  | .dictionaryEntry => ∃ value, meaning = .dictionaryEntry value
  | _ => meaning = .token

/-- A rule all of whose meanings are of one kind. -/
def Rule.StandsFor {α : Type} (rule : Rule) (kind : α → Meaning) : Prop :=
  ∀ meaning : Meaning, meaning.Of rule → ∃ value, meaning = kind value

/-- The rule of a kind of statement is there for such a statement or for a function. -/
theorem Meaning.Of.statement {rule : Rule} {meaning : Meaning} (hof : meaning.Of rule)
    (hkind : rule ∈ Rule.statements) :
    (∃ form, meaning = .statementForm form) ∨ ∃ declaration, meaning = .function declaration := by
  simp only [Rule.statements, List.mem_cons, List.not_mem_nil, or_false] at hkind
  rcases hkind with rfl | rfl | rfl | rfl | rfl | rfl | rfl | rfl | rfl | rfl | rfl | rfl | rfl |
    rfl
  case inr.inl => exact .inr hof
  all_goals exact .inl hof

namespace Part

/-- No fault is in a part. -/
def HasMeaning (part : Part) : Prop := ∃ meaning, part.meaning = .ok meaning

/-- A part that means what its rule is there for, or in which the source is at fault. -/
structure Apt (part : Part) : Prop where
  settled : Settles part.meaning (Meaning.Of part.rule)
  marks : part.rule.isMark → part.HasMeaning

variable {part : Part}

/-- A part that is asked for its meaning has one. -/
theorem Apt.means (hapt : part.Apt) :
    Settles part.meaning fun meaning => meaning.Of part.rule ∧ part.HasMeaning := by
  have hsettled := hapt.settled
  cases h : part.meaning with
  | ok meaning => exact ⟨by simpa [h] using hsettled, meaning, h⟩
  | error fault => simpa [h] using hsettled

end Part

/-- A fault is that of the first of several parts that is at fault. -/
inductive FirstFault (fault : SyntaxFault) : List Part → Prop
  | here {part : Part} {others : List Part} (hfails : part.meaning = .error fault) :
      FirstFault fault (part :: others)
  | later {part : Part} {others : List Part} (hmeans : part.HasMeaning)
      (hfails : FirstFault fault others) : FirstFault fault (part :: others)

/-- Something with a property is assembled from parts that all have a meaning; or the fault of the
first part without one is reported, unless what is assembled finds a fault of its own before. -/
def InTurn {α : Type} (own : SyntaxFault → Prop) (parts : List Part) (outcome : Assembled α)
    (property : α → Prop) : Prop :=
  match outcome with
  | .ok made => property made ∧ ∀ part ∈ parts, part.HasMeaning
  | .error fault => own fault ∨ FirstFault fault parts

section InTurn

variable {α β : Type} {own : SyntaxFault → Prop} {part : Part} {parts front back : List Part}
  {fault : SyntaxFault} {first : Assembled α} {outcome : Assembled β} {next : α → Assembled β}
  {given : α → Prop} {property : β → Prop} {made : β}

/-- The first fault of some parts is the first one with other parts behind them. -/
theorem FirstFault.append (hfails : FirstFault fault front) : FirstFault fault (front ++ back) := by
  induction hfails with
  | here hfails => exact .here hfails
  | later hmeans _ ih => exact .later hmeans ih

/-- The first fault of some parts is the first one behind parts without a fault. -/
theorem FirstFault.after (hmeans : ∀ part ∈ front, part.HasMeaning)
    (hfails : FirstFault fault back) : FirstFault fault (front ++ back) := by
  induction front with
  | nil => exact hfails
  | cons part front ih =>
    obtain ⟨hpart, hfront⟩ := List.forall_mem_cons.mp hmeans
    exact .later hpart (ih hfront)

/-- The first fault of several parts is the fault of one of them. -/
theorem FirstFault.exists_mem (hfails : FirstFault fault parts) :
    ∃ part ∈ parts, part.meaning = .error fault := by
  induction hfails with
  | here hfails => exact ⟨_, List.mem_cons_self .., hfails⟩
  | later _ _ ih =>
    obtain ⟨part, hmem, hpart⟩ := ih
    exact ⟨part, List.mem_cons_of_mem _ hmem, hpart⟩

@[simp] theorem inTurn_nil_ok : InTurn own [] (.ok made) property ↔ property made := by
  simp [InTurn]

@[simp] theorem inTurn_nil_pure : InTurn own [] (pure made) property ↔ property made :=
  inTurn_nil_ok

/-- Goes on with further parts from what was assembled from the first ones. -/
theorem InTurn.append (hfirst : InTurn own front first given)
    (hnext : ∀ made, first = .ok made → given made → InTurn own back (next made) property) :
    InTurn own (front ++ back) (first >>= next) property := by
  cases first with
  | error fault => exact hfirst.imp_right FirstFault.append
  | ok made =>
    obtain ⟨hgiven, hfront⟩ := hfirst
    have hback := hnext made rfl hgiven
    change InTurn own (front ++ back) (next made) property
    cases hmade : next made with
    | ok made' =>
      rw [hmade] at hback
      exact ⟨hback.1, List.forall_mem_append.mpr ⟨hfront, hback.2⟩⟩
    | error fault =>
      rw [hmade] at hback
      exact hback.imp_right (FirstFault.after hfront)

/-- Goes on with further parts from what was assembled from one. -/
theorem InTurn.cons (hfirst : InTurn own [part] first given)
    (hnext : ∀ made, first = .ok made → given made → InTurn own parts (next made) property) :
    InTurn own (part :: parts) (first >>= next) property :=
  hfirst.append hnext

/-- Ends with what was assembled from all parts. -/
theorem InTurn.finish (hfirst : InTurn own parts first given)
    (hnext : ∀ made, first = .ok made → given made → InTurn own [] (next made) property) :
    InTurn own parts (first >>= next) property := by
  simpa using hfirst.append hnext

/-- A part that is not looked at has a meaning all the same. -/
theorem InTurn.skip (hmeans : part.HasMeaning) (hothers : InTurn own parts outcome property) :
    InTurn own (part :: parts) outcome property := by
  cases outcome with
  | ok made => exact ⟨hothers.1, List.forall_mem_cons.mpr ⟨hmeans, hothers.2⟩⟩
  | error fault => exact hothers.imp_right (.later hmeans)

/-- A keyword or another mark is not looked at. -/
theorem InTurn.mark {rule : Rule} (hpart : part.rule = rule ∧ part.Apt) (hmark : rule.isMark)
    (hothers : InTurn own parts outcome property) : InTurn own (part :: parts) outcome property :=
  .skip (hpart.2.marks (hpart.1 ▸ hmark)) hothers

/-- What is assembled in turn is settled if the faults that are found on the way are the source's.
-/
theorem InTurn.settles (hinTurn : InTurn own parts outcome property)
    (hapt : ∀ part ∈ parts, part.Apt) (hofSource : ∀ fault, own fault → fault.OfSource) :
    Settles outcome fun made => property made ∧ ∀ part ∈ parts, part.HasMeaning := by
  cases outcome with
  | ok made => exact hinTurn
  | error fault =>
    rcases hinTurn with howns | hfails
    · exact hofSource fault howns
    · obtain ⟨part, hmem, hpart⟩ := hfails.exists_mem
      have hsettled := (hapt part hmem).settled
      rwa [hpart] at hsettled

section Readers

variable {rule : Rule}

/-- A part means what its rule is there for. -/
theorem inTurn_means (hpart : part.rule = rule ∧ part.Apt) :
    InTurn own [part] part.meaning (Meaning.Of rule) := by
  have hsettled : Settles part.meaning (Meaning.Of rule) := hpart.1 ▸ hpart.2.settled
  cases h : part.meaning with
  | ok meaning =>
    rw [h] at hsettled
    exact ⟨hsettled, List.forall_mem_singleton.mpr ⟨meaning, h⟩⟩
  | error fault => exact .inr (.here h)

/-- An identifier is read off its text. -/
theorem inTurn_identifier (hpart : part.rule = .identifier ∧ part.Apt) :
    InTurn own [part] part.identifier fun _ => True := by
  unfold Part.identifier
  rw [hpart.1]
  exact .mark hpart rfl (inTurn_nil_ok.mpr trivial)

/-- An expression is read where the rule is there for one. -/
theorem inTurn_expression (hpart : part.rule = rule ∧ part.Apt)
    (hkind : rule.StandsFor .expression) :
    InTurn own [part] part.expression fun _ => True := by
  refine (inTurn_means hpart).cons fun meaning _ hof => ?_
  obtain ⟨value, rfl⟩ := hkind meaning hof
  exact inTurn_nil_ok.mpr trivial

/-- A block is read where the rule is there for one. -/
theorem inTurn_block (hpart : part.rule = rule ∧ part.Apt)
    (hkind : rule.StandsFor .block) :
    InTurn own [part] part.block fun _ => True := by
  refine (inTurn_means hpart).cons fun meaning _ hof => ?_
  obtain ⟨value, rfl⟩ := hkind meaning hof
  exact inTurn_nil_ok.mpr trivial

/-- A statement is read. -/
theorem inTurn_statement (hpart : part.rule = .statement ∧ part.Apt) :
    InTurn own [part] part.statement fun _ => True := by
  refine (inTurn_means hpart).cons fun meaning _ hof => ?_
  obtain ⟨value, rfl⟩ := hof
  exact inTurn_nil_ok.mpr trivial

/-- Parameters are read. -/
theorem inTurn_parameters (hpart : part.rule = .parameterList ∧ part.Apt) :
    InTurn own [part] part.names fun _ => True := by
  refine (inTurn_means hpart).cons fun meaning _ hof => ?_
  obtain ⟨value, rfl⟩ := hof
  exact inTurn_nil_ok.mpr trivial

/-- The path of a struct is read; it has at least one name. -/
theorem inTurn_structPath (hpart : part.rule = .structPath ∧ part.Apt) :
    InTurn own [part] part.names (· ≠ []) := by
  refine (inTurn_means hpart).cons fun meaning _ hof => ?_
  obtain ⟨value, rfl, hvalue⟩ := hof
  exact inTurn_nil_ok.mpr hvalue

/-- A text literal is read. -/
theorem inTurn_string (hpart : part.rule = .string ∧ part.Apt) :
    InTurn own [part] part.string fun _ => True := by
  refine (inTurn_means hpart).cons fun meaning _ hof => ?_
  obtain ⟨value, rfl⟩ := hof
  exact inTurn_nil_ok.mpr trivial

/-- The declaration of a function is read. -/
theorem inTurn_function (hpart : part.rule = .functionDeclaration ∧ part.Apt) :
    InTurn own [part] part.function fun _ => True := by
  refine (inTurn_means hpart).cons fun meaning _ hof => ?_
  obtain ⟨value, rfl⟩ := hof
  exact inTurn_nil_ok.mpr trivial

/-- The head of a postfix chain is a number, a text, an expression or a mark. -/
theorem inTurn_primary (hpart : part.rule = rule ∧ part.Apt) (hkind : rule ∈ Rule.primaries) :
    InTurn own [part] part.primary fun _ => True := by
  unfold Part.primary
  refine (inTurn_means hpart).cons fun meaning _ hof => ?_
  rw [hpart.1]
  cases rule with
  | number | string | expression | functionLiteral | structLiteral | array | dictionary =>
    obtain ⟨value, rfl⟩ := hof
    exact inTurn_nil_ok.mpr trivial
  | boolean | nothing | identifier =>
    cases hof
    exact inTurn_nil_ok.mpr trivial
  | _ => exact absurd hkind (by decide)

/-- A further member of a postfix chain is a call, a member, an index or a slice. -/
theorem inTurn_postfixAfter (hpart : part.rule = rule ∧ part.Apt) (hkind : rule ∈ Rule.postfixes)
    (object : Expression) : InTurn own [part] (Part.postfixAfter object part) fun _ => True := by
  refine (inTurn_means hpart).cons fun meaning _ hof => ?_
  cases rule with
  | callArguments | memberAccess =>
    obtain ⟨value, rfl⟩ := hof
    exact inTurn_nil_ok.mpr trivial
  | indexAccess =>
    rcases hof with ⟨index, rfl⟩ | ⟨start, stop, rfl⟩ <;> exact inTurn_nil_ok.mpr trivial
  | _ => exact absurd hkind (by decide)

/-- The key of an entry is a text, a number or a name. -/
theorem inTurn_entryKey (hpart : part.rule = rule ∧ part.Apt)
    (hkind : rule ∈ [.string, .number, .identifier]) :
    InTurn own [part] part.entryKey fun _ => True := by
  unfold Part.entryKey
  refine (inTurn_means hpart).cons fun meaning _ hof => ?_
  rw [hpart.1]
  cases rule with
  | string | number =>
    obtain ⟨value, rfl⟩ := hof
    exact inTurn_nil_ok.mpr trivial
  | identifier =>
    cases hof
    exact inTurn_nil_ok.mpr trivial
  | _ => exact absurd hkind (by decide)

/-- A further clause of an `if` is a branch or a block. -/
theorem inTurn_addClause (hpart : part.rule = rule ∧ part.Apt)
    (hkind : rule = .elseifClause ∨ rule = .elseClause) (clauses : List Branch × Option Block) :
    InTurn own [part] (addClause clauses part) fun _ => True := by
  refine (inTurn_means hpart).cons fun meaning _ hof => ?_
  rcases hkind with rfl | rfl <;>
    · obtain ⟨value, rfl⟩ := hof
      exact inTurn_nil_ok.mpr trivial

end Readers

/-- Of several parts, each is read; there are as many readings as parts. -/
theorem inTurn_mapM {read : Part → Assembled α}
    (hread : ∀ part ∈ parts, InTurn own [part] (read part) fun _ => True) :
    InTurn own parts (parts.mapM read) fun made => made.length = parts.length := by
  induction parts with
  | nil => exact inTurn_nil_pure.mpr rfl
  | cons part parts ih =>
    rw [List.mapM_cons]
    refine (hread part (List.mem_cons_self ..)).cons fun _ _ _ => ?_
    refine (ih fun part h => hread part (List.mem_cons_of_mem _ h)).finish fun made _ hmade => ?_
    exact inTurn_nil_pure.mpr (congrArg (· + 1) hmade)

/-- Several parts are taken in one after the other. -/
theorem inTurn_foldlM {take : α → Part → Assembled α}
    (htake : ∀ made, ∀ part ∈ parts, InTurn own [part] (take made part) fun _ => True)
    (start : α) : InTurn own parts (parts.foldlM take start) fun _ => True := by
  induction parts generalizing start with
  | nil => exact inTurn_nil_pure.mpr trivial
  | cons part parts ih =>
    rw [List.foldlM_cons]
    refine (htake start part (List.mem_cons_self ..)).cons fun made _ _ => ?_
    exact ih (fun made part h => htake made part (List.mem_cons_of_mem _ h)) made

/-- A clause that may be missing is read if it is there, and what comes after it is left. -/
theorem inTurn_optionalClause {rule : Rule}
    (hkind : rule.StandsFor .block)
    (hfront : ∀ part ∈ front, part.Apt) (hpresent : front.map Part.rule ∈ [[], [rule]])
    (habsent : rule ∉ back.map Part.rule) :
    InTurn own front (optionalClause rule (front ++ back)) fun made => made.2 = back := by
  simp only [List.mem_cons, List.not_mem_nil, or_false] at hpresent
  rcases hpresent with hnone | hone
  · obtain rfl := List.map_eq_nil_iff.mp hnone
    cases back with
    | nil => exact inTurn_nil_pure.mpr rfl
    | cons part others =>
      have hrule : part.rule ≠ rule := fun hrule => habsent (hrule ▸ List.mem_cons_self ..)
      rw [List.nil_append, optionalClause, if_neg hrule]
      exact inTurn_nil_pure.mpr rfl
  · obtain ⟨part, rfl, hrule⟩ := List.map_eq_singleton_iff.mp hone
    rw [List.singleton_append, optionalClause, if_pos hrule]
    refine (inTurn_block ⟨hrule, hfront part (List.mem_cons_self ..)⟩ hkind).cons fun _ _ _ => ?_
    exact inTurn_nil_pure.mpr rfl

/-- The bounds of a slice are read. -/
theorem inTurn_sliceBounds
    (hparts : ∀ part ∈ parts, ∃ rule ∈ [Rule.sliceStart, .sliceEnd],
      part.rule = rule ∧ part.Apt) :
    InTurn own parts (sliceBounds parts) fun _ => True := by
  refine inTurn_foldlM (fun bounds part hmem => ?_) _
  obtain ⟨rule, hrule, hpart⟩ := hparts part hmem
  simp only [List.mem_cons, List.not_mem_nil, or_false] at hrule
  rcases hrule with rfl | rfl <;>
    · refine (inTurn_expression hpart fun _ => id).cons fun bound _ _ => ?_
      rw [hpart.1]
      exact inTurn_nil_pure.mpr trivial

section Shapes

variable {rule : Rule} {name value tail body parameters : Part}

/-- What is made from one expression. -/
theorem inTurn_value {make : Expression → β} (hvalue : value.rule = rule ∧ value.Apt)
    (hkind : rule.StandsFor .expression)
    (hmake : ∀ made, property (make made)) :
    InTurn own [value] (do return make (← value.expression)) property :=
  (inTurn_expression hvalue hkind).cons fun made _ _ => inTurn_nil_pure.mpr (hmake made)

/-- What is made from one block. -/
theorem inTurn_body {make : Block → β} (hbody : body.rule = .block ∧ body.Apt)
    (hmake : ∀ made, property (make made)) :
    InTurn own [body] (do return make (← body.block)) property :=
  (inTurn_block hbody fun _ => id).cons fun made _ _ => inTurn_nil_pure.mpr (hmake made)

/-- What is made from one name. -/
theorem inTurn_name {make : Identifier → β} (hname : name.rule = .identifier ∧ name.Apt)
    (hmake : ∀ made, property (make made)) :
    InTurn own [name] (do return make (← name.identifier)) property :=
  (inTurn_identifier hname).cons fun made _ _ => inTurn_nil_pure.mpr (hmake made)

/-- What is made from a name and a value. -/
theorem inTurn_nameAndValue {make : Identifier → Expression → β}
    (hname : name.rule = .identifier ∧ name.Apt) (hvalue : value.rule = .expression ∧ value.Apt)
    (hmake : ∀ first second, property (make first second)) :
    InTurn own [name, value] (do return make (← name.identifier) (← value.expression)) property :=
  (inTurn_identifier hname).cons fun first _ _ => inTurn_value hvalue (fun _ => id) (hmake first)

/-- What is made from two values. -/
theorem inTurn_twoValues {make : Expression → Expression → β}
    (hvalue : value.rule = .expression ∧ value.Apt) (htail : tail.rule = .expression ∧ tail.Apt)
    (hmake : ∀ first second, property (make first second)) :
    InTurn own [value, tail] (do return make (← value.expression) (← tail.expression)) property :=
  (inTurn_expression hvalue fun _ => id).cons fun first _ _ =>
    inTurn_value htail (fun _ => id) (hmake first)

/-- What is made from a condition, or from what a loop is over, and the block after it. -/
theorem inTurn_valueAndBody {make : Expression → Block → β}
    (hvalue : value.rule = .expression ∧ value.Apt) (hbody : body.rule = .block ∧ body.Apt)
    (hmake : ∀ first second, property (make first second)) :
    InTurn own [value, body] (do return make (← value.expression) (← body.block)) property :=
  (inTurn_expression hvalue fun _ => id).cons fun first _ _ => inTurn_body hbody (hmake first)

/-- What is made from the parameters and the body of a function. -/
theorem inTurn_parametersAndBody {make : List Identifier → Block → β}
    (hparameters : parameters.rule = .parameterList ∧ parameters.Apt)
    (hbody : body.rule = .block ∧ body.Apt) (hmake : ∀ first second, property (make first second)) :
    InTurn own [parameters, body] (do return make (← parameters.names) (← body.block)) property :=
  (inTurn_parameters hparameters).cons fun first _ _ => inTurn_body hbody (hmake first)

/-- What is made from parts of one kind. -/
theorem inTurn_all {read : Part → Assembled α} {make : List α → β}
    (hread : ∀ part, part.rule = rule ∧ part.Apt → InTurn own [part] (read part) fun _ => True)
    (hparts : ∀ part ∈ parts, part.rule = rule ∧ part.Apt)
    (hmake : ∀ made : List α, made.length = parts.length → property (make made)) :
    InTurn own parts (do return make (← parts.mapM read)) property :=
  (inTurn_mapM fun part hpart => hread part (hparts part hpart)).finish fun made _ hlength =>
    inTurn_nil_pure.mpr (hmake made hlength)

end Shapes

/-- A part that stands where an operand has to come is one or an operator in front of it. -/
theorem inTurn_rowItem_due {others : List Rule} (hapt : part.Apt)
    (halternate : Rule.Alternate true (part.rule :: others)) :
    InTurn own [part] part.rowItem fun item =>
      (∃ operator span, item = .unary operator span ∧ Rule.Alternate true others) ∨
        ∃ value, item = .operand value ∧ Rule.Alternate false others := by
  rw [Rule.Alternate] at halternate
  unfold Part.rowItem
  split at halternate
  · rename_i hunary
    obtain ⟨operator, hoperator⟩ := Option.isSome_iff_exists.mp hunary
    obtain ⟨hbinary, hmark⟩ : Part.binaryOperator? part.rule = none ∧ part.rule.isMark := by
      cases hrule : part.rule <;> simp_all [Part.unaryOperator?, Part.binaryOperator?] <;> rfl
    rw [hbinary, hoperator]
    refine .skip (hapt.marks hmark) (inTurn_nil_ok.mpr (.inl ?_))
    exact ⟨operator, part.span, rfl, halternate⟩
  · obtain ⟨hrule, hothers⟩ := halternate
    simp only [hrule, Part.binaryOperator?, Part.unaryOperator?]
    refine (inTurn_expression ⟨hrule, hapt⟩ fun _ => id).cons fun value _ _ => ?_
    exact inTurn_nil_pure.mpr (.inr ⟨value, rfl, hothers⟩)

/-- A part that stands after an operand is an operator between operands. -/
theorem inTurn_rowItem_binary {others : List Rule} (hapt : part.Apt)
    (halternate : Rule.Alternate false (part.rule :: others)) :
    InTurn own [part] part.rowItem fun item => ∃ operator, item = .binary operator := by
  obtain ⟨operator, hoperator⟩ := Option.isSome_iff_exists.mp halternate.1
  have hmark : part.rule.isMark := by
    cases hrule : part.rule <;> simp_all [Part.binaryOperator?] <;> rfl
  unfold Part.rowItem
  rw [hoperator]
  exact .skip (hapt.marks hmark) (inTurn_nil_ok.mpr ⟨operator, rfl⟩)

/-- Parts of which operands and operators alternate make such a row. -/
theorem inTurn_row {due : Bool} (hapt : ∀ part ∈ parts, part.Apt)
    (halternate : Rule.Alternate due (parts.map Part.rule)) :
    InTurn own parts (parts.mapM Part.rowItem) (RowItem.Alternates due) := by
  induction parts generalizing due with
  | nil =>
    cases due with
    | true => exact halternate.elim
    | false => exact inTurn_nil_pure.mpr trivial
  | cons part parts ih =>
    have hrest {due : Bool} := @ih due fun part h => hapt part (List.mem_cons_of_mem _ h)
    have hpart := hapt part (List.mem_cons_self ..)
    rw [List.mapM_cons]
    rw [List.map_cons] at halternate
    cases due with
    | true =>
      refine (inTurn_rowItem_due hpart halternate).cons fun item _ hitem => ?_
      obtain ⟨operator, span, rfl, hothers⟩ | ⟨value, rfl, hothers⟩ := hitem <;>
        exact (hrest hothers).finish fun _ _ hrow => inTurn_nil_pure.mpr hrow
    | false =>
      refine (inTurn_rowItem_binary hpart halternate).cons fun item _ hitem => ?_
      obtain ⟨operator, rfl⟩ := hitem
      exact (hrest halternate.2).finish fun _ _ hrow => inTurn_nil_pure.mpr hrow

/-- Such a row is made, or the source is at fault. -/
theorem settles_row {due : Bool} (hapt : ∀ part ∈ parts, part.Apt)
    (halternate : Rule.Alternate due (parts.map Part.rule)) :
    Settles (parts.mapM Part.rowItem) fun row =>
      RowItem.Alternates due row ∧ ∀ part ∈ parts, part.HasMeaning :=
  (inTurn_row hapt halternate).settles hapt (fun _ => False.elim)

end InTurn

/-- An expression that is asked for is there, or the source is at fault. -/
theorem Part.Apt.expression {part : Part} {rule : Rule} (hpart : part.rule = rule ∧ part.Apt)
    (hkind : rule.StandsFor .expression) :
    Settles part.expression fun _ => part.HasMeaning :=
  ((inTurn_expression hpart hkind).settles (List.forall_mem_singleton.mpr hpart.2)
    (fun _ => False.elim)).mono fun _ hmade => List.forall_mem_singleton.mp hmade.2

end Kestrel
