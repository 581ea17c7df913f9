import Kestrel.Proofs.Gives
import Kestrel.Proofs.Grammar.Reading
import Kestrel.Proofs.Syntax.Precedence
import Kestrel.Syntax.Assembly

/-!
# Parts of a text

A part is placed right if what it means is laid out in its span, and parts are in order between two
offsets if they follow each other there. What is read from such a part is laid out between any bound
before the part and its end, so that what is read from several parts in order can be put together.
-/

namespace Kestrel

/-- The nodes that a meaning brings into the tree. -/
def Meaning.nodes : Meaning → List SyntaxNode
  | .token | .number _ | .string _ => []
  | .program value => [.program value]
  | .statement value => [.statement value]
  | .statementForm value => value.nodes
  | .block value => [.block value]
  | .branch value => [.branch value]
  | .function value => [.function value]
  | .names value => value.map .identifier
  | .expression value => [.expression value]
  | .ternaryTail thenValue elseValue => [.expression thenValue, .expression elseValue]
  | .callArguments value => value.map .expression
  | .memberAccess property => [.identifier property]
  | .indexAccess index => [.expression index]
  | .sliceAccess start stop => (start.map .expression).toList ++ (stop.map .expression).toList
  | .structField value => [.field value]
  | .dictionaryEntry value => [.entry value]

/-- What a meaning tells of its rule: a literal takes a character, and a clause with a condition
does not mean a bare block. -/
def Meaning.Suits (rule : Rule) : Meaning → Prop
  | .number _ | .string _ => rule.advances
  | .block _ => rule ≠ .elseifClause
  | _ => True

variable {source : String} {low middle high : Nat}

/-- A meaning that belongs to a rule and is laid out in a span. -/
structure Meaning.Placed (source : String) (rule : Rule) (span : Span) (meaning : Meaning) :
    Prop where
  suits : meaning.Suits rule
  laid : Laid source span.start meaning.nodes span.stop

namespace Part

/-- A part that covers a span of the text and, if it has a meaning, has it laid out there. -/
structure Sound (source : String) (part : Part) : Prop where
  fits : part.span.Fits source
  nonempty : part.rule.advances → part.span.start < part.span.stop
  meaning : Gives part.meaning (Meaning.Placed source part.rule part.span)

/-- Parts that follow each other between two offsets of a text. -/
def InOrder (source : String) (low : Nat) : List Part → Nat → Prop
  | [], high => low ≤ high
  | part :: others, high =>
    low ≤ part.span.start ∧ part.Sound source ∧ InOrder source part.span.stop others high

namespace InOrder

variable {part : Part} {parts others : List Part}

/-- Parts that follow each other from an offset on do so from an earlier one on. -/
theorem low_le (hlower : low ≤ middle) (hinOrder : InOrder source middle parts high) :
    InOrder source low parts high := by
  cases parts with
  | nil => exact Nat.le_trans hlower hinOrder
  | cons => exact ⟨Nat.le_trans hlower hinOrder.1, hinOrder.2⟩

/-- A part may be left out, as a keyword is. -/
theorem skip (hinOrder : InOrder source low (part :: parts) high) : InOrder source low parts high :=
  have ⟨hle, hsound, hothers⟩ := hinOrder
  hothers.low_le (Nat.le_trans hle hsound.fits.start_le_stop)

/-- Parts in order end no earlier than they start. -/
theorem low_le_high (hinOrder : InOrder source low parts high) : low ≤ high := by
  induction parts generalizing low with
  | nil => exact hinOrder
  | cons part parts ih => exact ih hinOrder.skip

/-- Parts stay in order when some are left out. -/
theorem filter (keep : Part → Bool) (hinOrder : InOrder source low parts high) :
    InOrder source low (parts.filter keep) high := by
  induction parts generalizing low with
  | nil => exact hinOrder
  | cons part parts ih =>
    rw [List.filter_cons]
    split
    · exact ⟨hinOrder.1, hinOrder.2.1, ih hinOrder.2.2⟩
    · exact ih hinOrder.skip

/-- Reading each of several parts gives a list of what one reading gives, for every kind of list
that grows at its front by what a part gives. -/
theorem mapM {β : Type} {read : Part → Assembled β} (made : Nat → List β → Nat → Prop)
    (hnil : ∀ {low high}, low ≤ high → made low [] high)
    (hcons : ∀ {part low}, part.Sound source → low ≤ part.span.start →
      Gives (read part) fun item =>
        ∀ {rest high}, made part.span.stop rest high → made low (item :: rest) high)
    (hinOrder : InOrder source low parts high) :
    Gives (parts.mapM read) fun items => made low items high := by
  induction parts generalizing low with
  | nil => exact gives_ok.mpr (hnil hinOrder)
  | cons part parts ih =>
    obtain ⟨hle, hsound, hothers⟩ := hinOrder
    rw [List.mapM_cons]
    refine (hcons hsound hle).bind fun item hitem => ?_
    refine (ih hothers).bind fun rest hrest => ?_
    exact gives_pure.mpr (hitem hrest)

end InOrder

section Readers

variable {part : Part}

/-- What is picked out of a meaning, if its nodes are those of the meaning. -/
theorem Sound.pick {α : Type} {pick : Meaning → Assembled α} {nodes : α → List SyntaxNode}
    (hsound : part.Sound source) (hle : low ≤ part.span.start)
    (hsame : ∀ meaning, Gives (pick meaning) fun made => nodes made = meaning.nodes) :
    Gives (part.meaning >>= pick) fun made => Laid source low (nodes made) part.span.stop :=
  hsound.meaning.bind fun meaning hplaced =>
    (hsame meaning).mono fun _ heq => heq ▸ hplaced.laid.low_le hle

/-- A sound part that means an expression gives one within its span. -/
theorem Sound.expression (hsound : part.Sound source) (hle : low ≤ part.span.start) :
    Gives part.expression fun made => Laid source low [.expression made] part.span.stop :=
  hsound.pick hle fun meaning => by cases meaning <;> simp [misplaced, Meaning.nodes]

/-- A sound part that means a block gives one within its span. -/
theorem Sound.block (hsound : part.Sound source) (hle : low ≤ part.span.start) :
    Gives part.block fun made => Laid source low [.block made] part.span.stop :=
  hsound.pick hle fun meaning => by cases meaning <;> simp [misplaced, Meaning.nodes]

/-- A sound part that means a statement gives one within its span. -/
theorem Sound.statement (hsound : part.Sound source) (hle : low ≤ part.span.start) :
    Gives part.statement fun made => Laid source low [.statement made] part.span.stop :=
  hsound.pick hle fun meaning => by cases meaning <;> simp [misplaced, Meaning.nodes]

/-- A sound part that means names gives them within its span. -/
theorem Sound.names (hsound : part.Sound source) (hle : low ≤ part.span.start) :
    Gives part.names fun made => Laid source low (made.map .identifier) part.span.stop :=
  hsound.pick hle fun meaning => by cases meaning <;> simp [misplaced, Meaning.nodes]

/-- A sound part that means a function gives one within its span. -/
theorem Sound.function (hsound : part.Sound source) (hle : low ≤ part.span.start) :
    Gives part.function fun made => Laid source low [.function made] part.span.stop :=
  hsound.pick hle fun meaning => by cases meaning <;> simp [misplaced, Meaning.nodes]

/-- A node that covers a part and has nothing inside. -/
theorem Sound.leaf {node : SyntaxNode} (hsound : part.Sound source) (hle : low ≤ part.span.start)
    (hadvances : part.rule.advances) (hspan : node.span = part.span)
    (hchildren : node.children = []) :
    Laid source low [node] part.span.stop := by
  have hlaid : Laid source node.span.start [node] node.span.stop :=
    .single (hspan ▸ hsound.fits) (fun _ => hspan ▸ hsound.nonempty hadvances)
      (hchildren ▸ .nil (hspan ▸ hsound.fits.start_le_stop))
  rw [hspan] at hlaid
  exact hlaid.low_le hle

/-- A sound part that is an identifier gives it with its span. -/
theorem Sound.identifier (hsound : part.Sound source) (hle : low ≤ part.span.start) :
    Gives part.identifier fun made => Laid source low [.identifier made] part.span.stop := by
  unfold Part.identifier
  split
  · rename_i hrule
    exact gives_ok.mpr (hsound.leaf hle (by simp [hrule, Rule.advances]) rfl rfl)
  · exact gives_error

/-- The head of a postfix chain covers its part, unless the part is in parentheses. -/
theorem Sound.primary (hsound : part.Sound source) (hle : low ≤ part.span.start) :
    Gives part.primary fun made => Laid source low [.expression made] part.span.stop := by
  unfold Part.primary
  refine hsound.meaning.bind fun meaning hplaced => ?_
  split
  · exact gives_ok.mpr (hsound.leaf hle hplaced.suits rfl rfl)
  · exact gives_ok.mpr (hsound.leaf hle hplaced.suits rfl rfl)
  · exact gives_ok.mpr (hplaced.laid.low_le hle)
  · rename_i hrule
    exact gives_ok.mpr (hsound.leaf hle (by simp [hrule, Rule.advances]) rfl rfl)
  · rename_i hrule
    exact gives_ok.mpr (hsound.leaf hle (by simp [hrule, Rule.advances]) rfl rfl)
  · rename_i hrule
    have hname : Laid source low [.identifier ⟨part.text, part.span⟩] part.span.stop :=
      hsound.leaf hle (by simp [hrule, Rule.advances]) rfl rfl
    exact gives_ok.mpr hname.ofIdentifier
  · exact gives_error

/-- A further member of a postfix chain makes an expression that covers the chain up to it. -/
theorem Sound.postfixAfter {object : Expression} (hsound : part.Sound source)
    (hlaid : Laid source low [.expression object] part.span.start) :
    Gives (Part.postfixAfter object part) fun made =>
      Laid source low [.expression made] part.span.stop := by
  unfold Part.postfixAfter
  refine hsound.meaning.bind fun meaning hplaced => ?_
  have hchain := hlaid.append hplaced.laid
  split
  all_goals first
    | exact gives_error
    | exact gives_ok.mpr (hchain.around rfl hsound.fits rfl rfl)

/-- An expression stays laid out when members are added behind it. -/
theorem InOrder.postfixChain {parts : List Part} {object : Expression}
    (hlaid : Laid source low [.expression object] middle)
    (hinOrder : InOrder source middle parts high) :
    Gives (parts.foldlM Part.postfixAfter object) fun made =>
      Laid source low [.expression made] high := by
  induction parts generalizing middle object with
  | nil => exact gives_pure.mpr (hlaid.le_high hinOrder)
  | cons part parts ih =>
    obtain ⟨hle, hsound, hothers⟩ := hinOrder
    rw [List.foldlM_cons]
    exact (hsound.postfixAfter (hlaid.le_high hle)).bind fun made hmade => ih hmade hothers

/-- Reading a node from each of several parts. -/
theorem InOrder.nodes {α : Type} {read : Part → Assembled α} {node : α → SyntaxNode}
    {parts : List Part}
    (hone : ∀ {part low}, part.Sound source → low ≤ part.span.start →
      Gives (read part) fun made => Laid source low [node made] part.span.stop)
    (hinOrder : InOrder source low parts high) :
    Gives (parts.mapM read) fun made => Laid source low (made.map node) high := by
  refine hinOrder.mapM (fun low made high => Laid source low (made.map node) high) ?_ ?_
  · exact fun hle => .nil hle
  · exact fun hsound hle =>
      (hone hsound hle).mono fun made hfirst _ _ hothers => hfirst.append hothers

/-- Picking a node out of the meaning of each of several parts. -/
theorem InOrder.picked {α : Type} {pick : Part → Meaning → Assembled α} {parts : List Part}
    (node : α → SyntaxNode) (hinOrder : InOrder source low parts high)
    (hsame : ∀ part meaning, Gives (pick part meaning) fun made => [node made] = meaning.nodes) :
    Gives (parts.mapM fun part => part.meaning >>= pick part) fun made =>
      Laid source low (made.map node) high :=
  hinOrder.nodes fun hsound hle => hsound.pick hle (hsame _)

/-- Reading a row of operands and operators from several parts. -/
theorem InOrder.row {parts : List Part} (hinOrder : InOrder source low parts high) :
    Gives (parts.mapM Part.rowItem) fun made => RowLaid source low made high := by
  refine hinOrder.mapM (RowLaid source) RowLaid.nil fun {part low} hsound hle => ?_
  unfold Part.rowItem
  split
  · exact gives_ok.mpr (.binary (Nat.le_trans hle hsound.fits.start_le_stop))
  · exact gives_ok.mpr (.unary hle hsound.fits)
  · exact (hsound.expression hle).bind fun made hmade => gives_pure.mpr (.operand hmade)

end Readers

section Shapes

variable {β : Type} {property : β → Prop} {name value tail body parameters : Part}

/-- What is made from one expression. -/
theorem InOrder.oneValue {make : Expression → β} (hparts : InOrder source low [value] high)
    (hmake : ∀ made, Laid source low [.expression made] high → property (make made)) :
    Gives (do return make (← value.expression)) property := by
  obtain ⟨hle, hvalue, hhigh⟩ := hparts
  refine (hvalue.expression hle).bind fun made hmade => ?_
  exact gives_pure.mpr (hmake made (hmade.le_high hhigh))

/-- What is made from one block. -/
theorem InOrder.oneBody {make : Block → β} (hparts : InOrder source low [body] high)
    (hmake : ∀ made, Laid source low [.block made] high → property (make made)) :
    Gives (do return make (← body.block)) property := by
  obtain ⟨hle, hbody, hhigh⟩ := hparts
  refine (hbody.block hle).bind fun made hmade => ?_
  exact gives_pure.mpr (hmake made (hmade.le_high hhigh))

/-- What is made from one name. -/
theorem InOrder.oneName {make : Identifier → β} (hparts : InOrder source low [name] high)
    (hmake : ∀ made, Laid source low [.identifier made] high → property (make made)) :
    Gives (do return make (← name.identifier)) property := by
  obtain ⟨hle, hname, hhigh⟩ := hparts
  refine (hname.identifier hle).bind fun made hmade => ?_
  exact gives_pure.mpr (hmake made (hmade.le_high hhigh))

/-- What is made from a name and a value. -/
theorem InOrder.nameAndValue {make : Identifier → Expression → β}
    (hparts : InOrder source low [name, value] high)
    (hmake : ∀ first second,
      Laid source low [.identifier first, .expression second] high → property (make first second)) :
    Gives (do return make (← name.identifier) (← value.expression)) property := by
  obtain ⟨hle, hname, hvalue⟩ := hparts
  refine (hname.identifier hle).bind fun first hfirst => ?_
  exact InOrder.oneValue hvalue fun second hsecond => hmake first second (hfirst.append hsecond)

/-- What is made from two values. -/
theorem InOrder.twoValues {make : Expression → Expression → β}
    (hparts : InOrder source low [value, tail] high)
    (hmake : ∀ first second,
      Laid source low [.expression first, .expression second] high → property (make first second)) :
    Gives (do return make (← value.expression) (← tail.expression)) property := by
  obtain ⟨hle, hvalue, htail⟩ := hparts
  refine (hvalue.expression hle).bind fun first hfirst => ?_
  exact InOrder.oneValue htail fun second hsecond => hmake first second (hfirst.append hsecond)

/-- What is made from a condition, or from what a loop is over, and the block after it. -/
theorem InOrder.valueAndBody {make : Expression → Block → β}
    (hparts : InOrder source low [value, body] high)
    (hmake : ∀ first second,
      Laid source low [.expression first, .block second] high → property (make first second)) :
    Gives (do return make (← value.expression) (← body.block)) property := by
  obtain ⟨hle, hvalue, hbody⟩ := hparts
  refine (hvalue.expression hle).bind fun first hfirst => ?_
  exact InOrder.oneBody hbody fun second hsecond => hmake first second (hfirst.append hsecond)

/-- What is made from the parameters and the body of a function. -/
theorem InOrder.parametersAndBody {make : List Identifier → Block → β}
    (hparts : InOrder source low [parameters, body] high)
    (hmake : ∀ first second,
      Laid source low (first.map .identifier ++ [.block second]) high →
        property (make first second)) :
    Gives (do return make (← parameters.names) (← body.block)) property := by
  obtain ⟨hle, hparameters, hbody⟩ := hparts
  refine (hparameters.names hle).bind fun first hfirst => ?_
  exact InOrder.oneBody hbody fun second hsecond => hmake first second (hfirst.append hsecond)

/-- What is made from parts of one kind. -/
theorem InOrder.all {α : Type} {read : Part → Assembled α} {node : α → SyntaxNode}
    {make : List α → β} {parts : List Part}
    (hread : ∀ {part low}, part.Sound source → low ≤ part.span.start →
      Gives (read part) fun made => Laid source low [node made] part.span.stop)
    (hparts : InOrder source low parts high)
    (hmake : ∀ made : List α, Laid source low (made.map node) high → property (make made)) :
    Gives (do return make (← parts.mapM read)) property :=
  (hparts.nodes hread).bind fun made hmade => gives_pure.mpr (hmake made hmade)

/-- Parts in order are sound, each of them. -/
theorem InOrder.sound {parts : List Part} (hparts : InOrder source low parts high) :
    ∀ part ∈ parts, part.Sound source := by
  induction parts generalizing low with
  | nil => exact List.forall_mem_nil _
  | cons part parts ih => exact List.forall_mem_cons.mpr ⟨hparts.2.1, ih hparts.2.2⟩

end Shapes

end Part

end Kestrel
