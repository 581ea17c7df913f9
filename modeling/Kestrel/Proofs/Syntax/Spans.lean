import Kestrel.Proofs.Syntax.Assembly
import Kestrel.Syntax.Parse

/-!
# The spans of parsed texts

Every node of a tree that a text is parsed to has a span of the text: it ends after it starts and in
the text, between characters, on the line of its start; it encloses the spans of its children, and
those are apart and in order.
-/

namespace Kestrel

variable {source : String}

@[simp] theorem Node.rule_part (node : Node) : node.part.rule = node.rule := by
  cases node
  simp [Node.part]

/-- The parts of nodes are made one by one. -/
theorem partsOf_eq_map (nodes : List Node) : partsOf nodes = nodes.map Node.part := by
  induction nodes with
  | nil => rfl
  | cons node nodes ih => rw [partsOf, ih, List.map_cons]

/-- The parts of nodes are of the nodes' rules. -/
@[simp] theorem map_rule_partsOf (nodes : List Node) :
    (partsOf nodes).map Part.rule = nodes.map Node.rule := by
  simp [partsOf_eq_map]

/-- Nodes in a row in a text are parts in order, from the innermost outwards. -/
theorem Row.inOrder {before after : Cursor} {nodes : List Node} (hrow : Row before nodes after)
    (hwithin : before.In source) :
    Part.InOrder source before.position.offset (partsOf nodes) after.position.offset := by
  induction hrow with
  | nil hleads => exact hleads.offset_le
  | @cons before start stop after rule text children others hleads hinside hadvances hshape _
      ihInside ihOthers =>
    have hstart := hwithin.leads hleads
    have hstop := hstart.leads hinside.leads
    have hcovers : rule.Covers source (.between start.position stop.position) (partsOf children) :=
      { fits := .between hstart.position hstop.position hinside.leads.offset_le
        nonempty := hadvances
        inOrder := ihInside hstart
        yields := by simpa using hshape }
    exact ⟨hleads.offset_le, ⟨hcovers.fits, hadvances, hcovers.assemble text⟩, ihOthers hstop⟩

/-- The part that a whole text forms is placed right. -/
theorem sound_readPart (rule : Rule) (source : String) :
    Gives (readPart rule source) (Part.Sound source) := by
  have hfound := rule.matches_readText source
  unfold readPart
  split
  · rename_i hreply
    rw [hreply] at hfound
    exact gives_ok.mpr (hfound.takes.row.inOrder Cursor.ofText_in).2.1
  all_goals exact gives_error

/-- A parsed program is laid out in its text. -/
theorem laid_parseProgram (source : String) (sourceFile : Option String) :
    Gives (parseProgram source sourceFile) fun program =>
      ∃ low high, Laid source low [.program program] high := by
  unfold parseProgram
  refine gives_mapError.mpr ((sound_readPart .program source).bind fun part hsound => ?_)
  refine hsound.meaning.bind fun meaning hplaced => ?_
  split
  · -- the name of the file is no part of the tree
    cases hplaced.laid with
    | cons hle hfits hnonempty hinside hothers =>
      exact gives_pure.mpr ⟨_, _, .cons hle hfits hnonempty hinside hothers⟩
  · exact gives_error

/-- A parsed expression is laid out in its text. -/
theorem laid_parseExpression (source : String) :
    Gives (parseExpression source) fun expression =>
      ∃ low high, Laid source low [.expression expression] high := by
  unfold parseExpression
  refine gives_mapError.mpr ((sound_readPart .singleExpression source).bind fun part hsound => ?_)
  exact (hsound.expression (Nat.le_refl _)).mono fun _ hlaid => ⟨_, _, hlaid⟩

/-- Whatever text is parsed, as a program or as an expression, every node of its tree has its span
right. -/
theorem wellPlaced_of_parsed (source : String) (sourceFile : Option String) :
    (∀ program, parseProgram source sourceFile = .ok program →
      ∀ node, (SyntaxNode.program program).Contains node → node.WellPlaced source) ∧
    (∀ expression, parseExpression source = .ok expression →
      ∀ node, (SyntaxNode.expression expression).Contains node → node.WellPlaced source) := by
  constructor
  · intro program hparsed node hcontains
    obtain ⟨_, _, hlaid⟩ := laid_parseProgram source sourceFile program hparsed
    obtain ⟨_, _, hlaid⟩ := hlaid.contained hcontains
    exact hlaid.wellPlaced
  · intro expression hparsed node hcontains
    obtain ⟨_, _, hlaid⟩ := laid_parseExpression source expression hparsed
    obtain ⟨_, _, hlaid⟩ := hlaid.contained hcontains
    exact hlaid.wellPlaced

/-- Characters of several bytes, comments in and after a statement, a chain behind parentheses and
an expression over two lines that starts inside parentheses. -/
theorem wellPlaced_of_chain_in_comments :
    let program := "\"é\"; /*ü*/\n-(a).b[1:] + c // end\n"
    let sum := "(a)\n + b"
    (∃ parsed, parseProgram program none = .ok parsed ∧
      parsed.statements.map (·.span.line) = [1, 2] ∧
        ∀ node, (SyntaxNode.program parsed).Contains node → node.WellPlaced program) ∧
    ∃ parsed, parseExpression sum = .ok parsed ∧ (parsed.span.start, parsed.span.stop) = (1, 8) ∧
      ∀ node, (SyntaxNode.expression parsed).Contains node → node.WellPlaced sum := by
  intro program sum
  have hprogram : (match parseProgram program none with
      | .ok parsed => decide (parsed.statements.map (·.span.line) = [1, 2])
      | .error _ => false) = true := by decide +kernel
  have hsum : (match parseExpression sum with
      | .ok parsed => decide ((parsed.span.start, parsed.span.stop) = (1, 8))
      | .error _ => false) = true := by decide +kernel
  constructor
  · split at hprogram
    · next parsed hparsed =>
      exact ⟨parsed, hparsed, of_decide_eq_true hprogram,
        (wellPlaced_of_parsed program none).1 parsed hparsed⟩
    · contradiction
  · split at hsum
    · next parsed hparsed =>
      exact ⟨parsed, hparsed, of_decide_eq_true hsum,
        (wellPlaced_of_parsed sum none).2 parsed hparsed⟩
    · contradiction

end Kestrel
