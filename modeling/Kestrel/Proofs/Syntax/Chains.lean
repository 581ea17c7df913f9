import Kestrel.Proofs.Syntax.Faults

/-!
# Operator chains of a source text

What the grammar matches as a chain of operators becomes a row of which operands and operators
alternate, and its tree is that of the one grouping of the row that respects the levels.
-/

namespace Kestrel

namespace Node

/-- A chain of operators means the tree of the row that its parts make, and operands and operators
of this row alternate; or the source is at fault. -/
def ReadsChain (node : Node) : Prop :=
  node.rule = .binaryExpr → Settles node.part.meaning fun meaning =>
    ∃ row tree, (partsOf node.children).mapM Part.rowItem = .ok row ∧
      RowItem.Alternates true row ∧ Expression.ofRow? row = some tree ∧
      meaning = .expression tree

variable {node : Node}

/-- A chain whose parts are apt for their rules means the tree of its row. -/
theorem WellFormed.readsChain (hwellFormed : node.WellFormed)
    (hapt : ∀ child ∈ node.children, child.part.Apt) : node.ReadsChain := by
  intro hrule
  have hparts : ∀ part ∈ partsOf node.children, part.Apt := by
    intro part hpart
    obtain ⟨child, hchild, rfl⟩ := mem_partsOf.mp hpart
    exact hapt child hchild
  have halternate : Rule.Alternate true ((partsOf node.children).map Part.rule) := by
    have hmade := hwellFormed.madeOf
    rw [hrule] at hmade
    rw [map_rule_partsOf]
    exact hmade
  have hrow := settles_row hparts halternate
  obtain ⟨rule, start, stop, text, children⟩ := node
  cases hrule
  change Settles (assemble .binaryExpr (Span.between start stop) text (partsOf children)) _
  dsimp only [assemble]
  cases hread : (partsOf children).mapM Part.rowItem with
  | error fault =>
    rw [hread] at hrow
    exact hrow
  | ok row =>
    rw [hread] at hrow
    obtain ⟨whole, -, htree, -⟩ := exists_grouping_of_row hrow.1
    simp only [bind, Except.bind, htree]
    exact ⟨row, whole.expression, rfl, hrow.1, htree, rfl⟩

/-- In a tree that is well-formed throughout, every chain means the tree of its row. -/
theorem Throughout.readsChain (hwellFormed : node.Throughout WellFormed) :
    node.Throughout ReadsChain := by
  induction hwellFormed with
  | intro hhere hinside ih =>
    exact .intro (hhere.readsChain fun child h => (hinside child h).apt) ih

end Node

/-- A row of which operands and operators alternate has exactly one grouping that respects the
levels: nothing is lost, repeated or out of order, what is to the right of an operator is joined by
operators of higher levels only, what is to its left by operators of its own or higher levels, and
an operator in front of an operand takes in no operator between operands. The tree of the row is the
tree of this grouping, and climbing through the row by binding power finds it, too. The levels rise
from `or`, `and`, equality and order to sums and products, and the operators in front of operands
are above them all. Whatever a source text is read as, every chain of operators in it is such a row.
-/
theorem operators_group_by_level :
    (∀ row, RowItem.Alternates true row →
      ∃ grouping : Grouping, Expression.ofRow? row = some grouping.expression ∧
        grouping.row = row ∧ grouping.Binds ∧
        (∀ other : Grouping, other.row = row → other.Binds → other = grouping) ∧
        Climbs 0 none row grouping []) ∧
    (∀ operator : BinaryOperator, (∃ group ∈ BinaryOperator.byLevel, operator ∈ group) ∧
      operator.level < UnaryOperator.level) ∧
    (∀ looser tighter : BinaryOperator, looser.level < tighter.level ↔
      BinaryOperator.byLevel.findIdx (looser ∈ ·) < BinaryOperator.byLevel.findIdx (tighter ∈ ·)) ∧
    ∀ (rule : Rule) (source : String), match rule.readText source with
      | .matched _ nodes _ => ∀ node ∈ nodes, node.Throughout Node.ReadsChain
      | .failed _ | .exhausted => True := by
  refine ⟨?_, ?_, ?_, ?_⟩
  · intro row halternates
    obtain ⟨grouping, hbinds, htree, hrow⟩ := exists_grouping_of_row halternates
    refine ⟨grouping, htree, hrow, hbinds, ?_, ?_⟩
    · intro other hother hotherBinds
      exact hbinds.unique hotherBinds (hother.trans hrow.symm)
    · rw [← hrow]
      exact hbinds.climbs_row
  · exact fun operator => ⟨operator.exists_mem_byLevel, operator.level_lt⟩
  · intro looser tighter
    rw [looser.level_eq, tighter.level_eq]
    exact Nat.add_lt_add_iff_right
  · intro rule source
    have hmatches := rule.matches_readText source
    split
    · rename_i hreply
      rw [hreply] at hmatches
      intro node hnode
      exact (hmatches.wellFormed node hnode).readsChain
    all_goals trivial

/-- In `not a - 2 * b - 3 < c` the operator in front takes in `a` only, the product is formed first,
and the differences are formed from the left. No other grouping respects the levels. -/
theorem differences_group_from_left :
    let operand (name : String) : Expression := ⟨.identifier name, default⟩
    let row : List RowItem := [.unary .not default, .operand (operand "a"), .binary .subtract,
      .operand (operand "two"), .binary .multiply, .operand (operand "b"), .binary .subtract,
      .operand (operand "three"), .binary .less, .operand (operand "c")]
    let negated := (operand "a").applyUnary (.not, default)
    let product := (operand "two").joinBinary .multiply (operand "b")
    let difference := negated.joinBinary .subtract product
    let whole := (difference.joinBinary .subtract (operand "three")).joinBinary .less (operand "c")
    RowItem.Alternates true row ∧ ∃ grouping : Grouping, grouping.row = row ∧ grouping.Binds ∧
      grouping.expression = whole ∧
      ∀ other : Grouping, other.row = row → other.Binds → other.expression = whole := by
  intro operand row negated product difference whole
  have halternates : RowItem.Alternates true row := trivial
  have hwhole : Expression.ofRow? row = some whole := rfl
  obtain ⟨grouping, htree, hrow, hbinds, hunique, -⟩ := operators_group_by_level.1 row halternates
  have hgrouping : grouping.expression = whole := Option.some.inj (htree.symm.trans hwhole)
  refine ⟨halternates, grouping, hrow, hbinds, hgrouping, fun other hother hotherBinds => ?_⟩
  rw [hunique other hother hotherBinds, hgrouping]

end Kestrel
