import Kestrel.Proofs.Source.Cursor
import Kestrel.Syntax.Tree
import Mathlib.Logic.Relation

/-!
# The nodes of a syntax tree

Everything in a tree that has a span of its own is a node, and a node's children are the nodes right
inside it, in the order of the tree. Nodes are laid out between two offsets of a text if they follow
each other there, none is empty but a program, and each has its children laid out inside its span.
A tree that is laid out has its spans in order at every depth.
-/

namespace Kestrel

/-- What has a span in a syntax tree. The span of a statement takes in the semicolon after it, so a
form of statement with a span of its own is a node inside the statement. -/
inductive SyntaxNode where
  | program (value : Program)
  | statement (value : Statement)
  | form (value : StatementForm) (span : Span)
  | block (value : Block)
  | branch (value : Branch)
  | function (value : FunctionDeclaration)
  | struct (value : StructDeclaration)
  | importing (value : ImportDeclaration)
  | identifier (value : Identifier)
  | expression (value : Expression)
  | entry (value : DictionaryEntry)
  | field (value : StructField)

/-- The span that a form of statement keeps for itself. -/
def StatementForm.span? : StatementForm → Option Span
  | .var _ _ span | .assignment _ _ _ span | .conditional _ _ span | .loop _ span
  | .forEach _ _ _ _ span | .method _ _ span | .attempt _ _ _ span => some span
  | .expression _ | .function _ | .struct _ | .returning _ | .breaking | .continuing
  | .importing _ => none

/-- The nodes right inside a form of statement. -/
def StatementForm.inside : StatementForm → List SyntaxNode
  | .var name value _ => [.identifier name, .expression value]
  | .assignment target _ value _ => [.expression target, .expression value]
  | .expression value => [.expression value]
  | .conditional branches otherwise _ =>
    branches.map .branch ++ (otherwise.map .block).toList
  | .loop body _ => [.block body]
  | .forEach index item iterable body _ =>
    (index.map .identifier).toList ++ [.identifier item, .expression iterable, .block body]
  | .function declaration => [.function declaration]
  | .struct declaration => [.struct declaration]
  | .method structName declaration _ => [.identifier structName, .function declaration]
  | .attempt body catchBlock finallyBlock _ =>
    .block body :: ((catchBlock.map .block).toList ++ (finallyBlock.map .block).toList)
  | .returning value => (value.map .expression).toList
  | .breaking | .continuing => []
  | .importing declaration => [.importing declaration]

/-- The nodes that a form of statement puts right inside the statement. -/
def StatementForm.nodes (form : StatementForm) : List SyntaxNode :=
  match form.span? with
  | some span => [.form form span]
  | none => form.inside

/-- The nodes right inside a form of expression that covers `span`. -/
def ExpressionForm.inside (span : Span) : ExpressionForm → List SyntaxNode
  | .number _ | .string _ | .boolean _ | .nothing => []
  | .identifier name => [.identifier ⟨name, span⟩]
  | .array elements => elements.map .expression
  | .dictionary entries => entries.map .entry
  | .structLiteral target fields => .expression target :: fields.map .field
  | .function parameters body => parameters.map .identifier ++ [.block body]
  | .binary left _ right => [.expression left, .expression right]
  | .unary _ operand => [.expression operand]
  | .ternary condition thenValue elseValue =>
    [.expression condition, .expression thenValue, .expression elseValue]
  | .call callee arguments => .expression callee :: arguments.map .expression
  | .member object property => [.expression object, .identifier property]
  | .index object key => [.expression object, .expression key]
  | .slice object start stop =>
    .expression object :: ((start.map .expression).toList ++ (stop.map .expression).toList)

namespace SyntaxNode

/-- The span of a node. -/
def span : SyntaxNode → Span
  | program value => value.span
  | statement value => value.span
  | form _ span => span
  | block value => value.span
  | branch value => value.span
  | function value => value.span
  | struct value => value.span
  | importing value => value.span
  | identifier value => value.span
  | expression value => value.span
  | entry value => value.span
  | field value => value.span

/-- The nodes right inside a node, in the order of the tree. -/
def children : SyntaxNode → List SyntaxNode
  | program value => value.statements.map statement
  | statement value => value.form.nodes
  | form value _ => value.inside
  | block value => value.statements.map statement
  | branch value => [expression value.condition, block value.body]
  | function value =>
    identifier value.name :: (value.parameters.map identifier ++ [block value.body])
  | struct value => identifier value.name :: value.properties.map identifier
  | importing value => (value.alias?.map identifier).toList
  | identifier _ => []
  | expression value => value.form.inside value.span
  | entry value => [expression value.value]
  | field value => [identifier value.name, expression value.value]

/-- Whether a node may cover nothing: only a program may. -/
def mayBeEmpty : SyntaxNode → Bool
  | program _ => true
  | _ => false

/-- A node anywhere in the tree of another, which is in its own tree. -/
def Contains : SyntaxNode → SyntaxNode → Prop :=
  Relation.ReflTransGen fun parent child => child ∈ parent.children

end SyntaxNode

/-- A span of a text: it ends in the text and not before it starts, both between characters, and its
line is that of its start. -/
structure Span.Fits (source : String) (span : Span) : Prop where
  start_le_stop : span.start ≤ span.stop
  stop_le_size : span.stop ≤ source.utf8ByteSize
  start_boundary : (⟨span.start⟩ : String.Pos.Raw).IsValid source
  stop_boundary : (⟨span.stop⟩ : String.Pos.Raw).IsValid source
  line_eq : ∃ before after, source = before ++ after ∧ before.utf8ByteSize = span.start ∧
    span.line = 1 + before.toList.count '\n'

/-- A node whose span is right: it is a span of the text, it is not empty but for a program's, it
takes in the spans of the node's children, and those are apart and in the order of the text. -/
structure SyntaxNode.WellPlaced (source : String) (node : SyntaxNode) : Prop where
  fits : node.span.Fits source
  nonempty : node.mayBeEmpty = false → node.span.start < node.span.stop
  encloses : ∀ child ∈ node.children,
    node.span.start ≤ child.span.start ∧ child.span.stop ≤ node.span.stop
  apart : node.children.Pairwise fun first second => first.span.stop ≤ second.span.start

/-- Nodes that follow each other between two offsets of a text, each with its children laid out in
its span. -/
inductive Laid (source : String) : Nat → List SyntaxNode → Nat → Prop
  | nil {low high : Nat} : low ≤ high → Laid source low [] high
  | cons {low high : Nat} {node : SyntaxNode} {others : List SyntaxNode} :
      low ≤ node.span.start → node.span.Fits source →
      (node.mayBeEmpty = false → node.span.start < node.span.stop) →
      Laid source node.span.start node.children node.span.stop →
      Laid source node.span.stop others high →
      Laid source low (node :: others) high

variable {source : String}

@[simp] theorem Span.start_join (first last : Span) : (first.join last).start = first.start := rfl

@[simp] theorem Span.stop_join (first last : Span) : (first.join last).stop = last.stop := rfl

/-- A place of a text is at a boundary of its characters. -/
theorem Position.In.boundary {position : Position} (hwithin : position.In source) :
    (⟨position.offset⟩ : String.Pos.Raw).IsValid source := by
  obtain ⟨read, rest, rfl, rfl⟩ := hwithin
  exact String.Pos.Raw.isValid_iff_exists_append.mpr ⟨read, rest, rfl, rfl⟩

namespace Span.Fits

variable {start stop : Position} {first last : Span}

/-- The span between two places of a text fits the text. -/
theorem between (hstart : start.In source) (hstop : stop.In source)
    (hle : start.offset ≤ stop.offset) : (Span.between start stop).Fits source where
  start_le_stop := hle
  stop_le_size := hstop.offset_le
  start_boundary := hstart.boundary
  stop_boundary := hstop.boundary
  line_eq := by
    obtain ⟨read, rest, rfl, rfl⟩ := hstart
    exact ⟨read, rest, rfl, rfl, rfl⟩

/-- The span from one to a later one is a span of the text, whatever lies between them. -/
theorem join (hfirst : first.Fits source) (hlast : last.Fits source)
    (hle : first.start ≤ last.stop) : (first.join last).Fits source where
  start_le_stop := hle
  stop_le_size := hlast.stop_le_size
  start_boundary := hfirst.start_boundary
  stop_boundary := hlast.stop_boundary
  line_eq := hfirst.line_eq

end Span.Fits

namespace Laid

variable {low middle high : Nat} {node : SyntaxNode} {nodes more : List SyntaxNode}

/-- What is laid out from an offset on is so from an earlier one on. -/
theorem low_le (hlower : low ≤ middle) (hlaid : Laid source middle nodes high) :
    Laid source low nodes high := by
  cases hlaid with
  | nil hle => exact .nil (Nat.le_trans hlower hle)
  | cons hle hfits hnonempty hinside hothers =>
    exact .cons (Nat.le_trans hlower hle) hfits hnonempty hinside hothers

/-- Nodes laid out with others behind them are laid out. -/
theorem append (hfirst : Laid source low nodes middle) (hsecond : Laid source middle more high) :
    Laid source low (nodes ++ more) high := by
  induction hfirst with
  | nil hle => exact hsecond.low_le hle
  | cons hle hfits hnonempty hinside _ _ ih => exact .cons hle hfits hnonempty hinside (ih hsecond)

/-- What is laid out up to an offset is so up to a later one. -/
theorem le_high (hlaid : Laid source low nodes middle) (hupper : middle ≤ high) :
    Laid source low nodes high := by
  simpa using hlaid.append (.nil hupper)

/-- What is laid out ends no earlier than it starts. -/
theorem low_le_high (hlaid : Laid source low nodes high) : low ≤ high := by
  induction hlaid with
  | nil hle => exact hle
  | cons hle hfits _ _ _ _ ih => have := hfits.start_le_stop; omega

/-- One node whose children are laid out in its span. -/
theorem single (hfits : node.span.Fits source)
    (hnonempty : node.mayBeEmpty = false → node.span.start < node.span.stop)
    (hinside : Laid source node.span.start node.children node.span.stop) :
    Laid source node.span.start [node] node.span.stop :=
  .cons (Nat.le_refl _) hfits hnonempty hinside (.nil (Nat.le_refl _))

/-- The first node starts at the lower bound or later. -/
theorem low_le_start (hlaid : Laid source low (node :: nodes) high) : low ≤ node.span.start := by
  cases hlaid with
  | cons hle => exact hle

/-- The first node's span fits the text. -/
theorem fits (hlaid : Laid source low (node :: nodes) high) : node.span.Fits source := by
  cases hlaid with
  | cons _ hfits => exact hfits

/-- The first node's span is not empty unless it may be. -/
theorem nonempty (hlaid : Laid source low (node :: nodes) high) :
    node.mayBeEmpty = false → node.span.start < node.span.stop := by
  cases hlaid with
  | cons _ _ hnonempty => exact hnonempty

/-- What is inside the first node is laid out in its span. -/
theorem inside (hlaid : Laid source low (node :: nodes) high) :
    Laid source node.span.start node.children node.span.stop := by
  cases hlaid with
  | cons _ _ _ hinside => exact hinside

/-- A node around a first node and what follows it, up to where another span ends. -/
theorem around {first : SyntaxNode} {last : Span}
    (hlaid : Laid source low (first :: nodes) last.stop) (hnonempty : first.mayBeEmpty = false)
    (hfits : last.Fits source)
    (hspan : node.span = first.span.join last) (hchildren : node.children = first :: nodes) :
    Laid source low [node] last.stop := by
  cases hlaid with
  | cons hle hfirst hnonempty' hinside hothers =>
    have hstop := hothers.low_le_high
    have hstart := hnonempty' hnonempty
    refine .cons (by simpa [hspan] using hle) (hspan ▸ hfirst.join hfits (by omega))
      (fun _ => ?_) ?_ (.nil (by simp [hspan]))
    · simp only [hspan, Span.start_join, Span.stop_join]; omega
    · rw [hspan, hchildren]
      exact .cons (Nat.le_refl _) hfirst hnonempty' hinside hothers

/-- A name that stands for an expression covers what the expression covers. -/
theorem ofIdentifier {name : Identifier} (hlaid : Laid source low [.identifier name] high) :
    Laid source low [.expression ⟨.identifier name.name, name.span⟩] high := by
  cases hlaid with
  | cons hle hfits hnonempty hinside hothers =>
    exact .cons hle hfits hnonempty (.single hfits hnonempty hinside) hothers

/-- A list that a node begins lays out the node and, after it, the others. -/
theorem cons_inv (hlaid : Laid source low (node :: nodes) high) :
    Laid source low [node] node.span.stop ∧ Laid source node.span.stop nodes high := by
  cases hlaid with
  | cons hle hfits hnonempty hinside hothers =>
    exact ⟨.cons hle hfits hnonempty hinside (.nil (Nat.le_refl _)), hothers⟩

/-- The last of several nodes may be taken for their upper bound. -/
theorem to_last (hlaid : Laid source low (nodes ++ [node]) high) :
    Laid source low (nodes ++ [node]) node.span.stop ∧ node.span.stop ≤ high := by
  induction nodes generalizing low with
  | nil =>
    obtain ⟨hnode, hothers⟩ := hlaid.cons_inv
    exact ⟨hnode, hothers.low_le_high⟩
  | cons first nodes ih =>
    obtain ⟨hfirst, hothers⟩ := hlaid.cons_inv
    obtain ⟨hnodes, hle⟩ := ih hothers
    exact ⟨hfirst.append hnodes, hle⟩

/-- A node around two others. -/
theorem pair {first last : SyntaxNode} (hlaid : Laid source low [first, last] high)
    (hnonempty : first.mayBeEmpty = false) (hspan : node.span = first.span.join last.span)
    (hchildren : node.children = [first, last]) : Laid source low [node] high := by
  obtain ⟨hboth, hle⟩ := to_last (show Laid source low ([first] ++ [last]) high from hlaid)
  obtain ⟨-, hlast⟩ := hlaid.cons_inv
  exact (hboth.around hnonempty hlast.fits hspan hchildren).le_high hle

/-- Somewhere between two rows the first one ends and the second one begins. -/
theorem append_inv (hlaid : Laid source low (nodes ++ more) high) :
    ∃ middle, Laid source low nodes middle ∧ Laid source middle more high := by
  induction nodes generalizing low with
  | nil => exact ⟨low, .nil (Nat.le_refl _), hlaid⟩
  | cons node nodes ih =>
    obtain ⟨hnode, hothers⟩ := hlaid.cons_inv
    obtain ⟨middle, hnodes, hmore⟩ := ih hothers
    exact ⟨middle, hnode.append hnodes, hmore⟩

/-- A node that is laid out among others lies between their bounds, and its children in its span. -/
theorem of_mem (hlaid : Laid source low nodes high) (hmember : node ∈ nodes) :
    (low ≤ node.span.start ∧ node.span.stop ≤ high) ∧ ∃ low high, Laid source low [node] high := by
  obtain ⟨front, back, rfl⟩ := List.append_of_mem hmember
  obtain ⟨middle, hfront, hback⟩ := hlaid.append_inv
  obtain ⟨hnode, hothers⟩ := hback.cons_inv
  exact ⟨⟨Nat.le_trans hfront.low_le_high hnode.low_le_start, hothers.low_le_high⟩, _, _, hnode⟩

/-- Nodes that are laid out are apart and in the order of the text. -/
theorem apart (hlaid : Laid source low nodes high) :
    nodes.Pairwise fun first second => first.span.stop ≤ second.span.start := by
  induction hlaid with
  | nil => exact .nil
  | cons _ _ _ _ hothers _ ih => exact .cons (fun _ hmember => (hothers.of_mem hmember).1.1) ih

/-- Where a tree is laid out, so is every part of it. -/
theorem contained {root : SyntaxNode} (hlaid : Laid source low [root] high)
    (hcontains : root.Contains node) : ∃ low high, Laid source low [node] high := by
  induction hcontains with
  | refl => exact ⟨low, high, hlaid⟩
  | tail _ hchild ih =>
    obtain ⟨_, _, hparent⟩ := ih
    exact (hparent.inside.of_mem hchild).2

/-- A node that is laid out alone is well placed. -/
theorem wellPlaced (hlaid : Laid source low [node] high) : node.WellPlaced source where
  fits := hlaid.fits
  nonempty := hlaid.nonempty
  encloses := fun _ hchild => (hlaid.inside.of_mem hchild).1
  apart := hlaid.inside.apart

end Laid

end Kestrel
