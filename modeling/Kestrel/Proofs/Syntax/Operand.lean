import Kestrel.Proofs.Grammar.Path
import Kestrel.Proofs.Syntax.Entry

/-!
# Expressions of one operand

Where no operator comes in front of an operand and none after it, the expression is the operand. So
a text that is a primary expression is parsed as what the primary expression stands for.
-/

namespace Kestrel

section Meaning

variable {cursor next : Cursor} {operand first : Node}

/-- An operand that is all there is of an expression is what the expression stands for. -/
theorem expression_of_operand (hrule : operand.rule = .postfixExpr) :
    (Rule.expression.nodeOf cursor next [Rule.binaryExpr.nodeOf cursor next
      [operand]]).part.expression = operand.part.expression := by
  have hitem : operand.part.rowItem = RowItem.operand <$> operand.part.expression := by
    unfold Part.rowItem
    rw [Node.rule_part, hrule]
    cases operand.part.expression <;> rfl
  have hbinary : (Rule.binaryExpr.nodeOf cursor next [operand]).part.expression =
      operand.part.expression := by
    change ((([operand.part].mapM Part.rowItem) >>= _) >>= _) = _
    rw [List.mapM_cons, hitem]
    cases operand.part.expression <;> rfl
  change (((Rule.binaryExpr.nodeOf cursor next [operand]).part.expression >>= _) >>= _) = _
  rw [hbinary]
  cases operand.part.expression <;> rfl

/-- A primary expression that is all there is of an operand is what the operand stands for. -/
theorem expression_of_primary :
    (Rule.postfixExpr.nodeOf cursor next [first]).part.expression = first.part.primary := by
  change ((first.part.primary >>= fun value =>
    (partsOf []).foldlM Part.postfixAfter value >>= _) >>= _) = _
  cases first.part.primary <;> rfl

end Meaning

section Parsing

variable {source : String} {node : Node} {last : Cursor}

/-- A text that is a primary expression is parsed as what it stands for. -/
theorem parseExpression_of_primary
    (hsettled : (Cursor.ofText source).skipGap = .ofText source)
    (hreads : Reads .spaced .primaryExpr (.ofText source) (some ([node], last)))
    (hends : last.rest = []) :
    parseExpression source = node.part.primary.mapError (⟨source, ·⟩) := by
  have hlast := Cursor.skipGap_of_nil hends
  have hends' : last.skipGap.rest = [] := by rwa [hlast]
  have hstops : Reads .spaced (.many .postfixOp) last.skipGap (some ([], last)) := by
    rw [hlast]
    exact .manyNone (Pattern.refused_at_end (by decide) rfl hends)
  have hoperand := (hreads.followed hstops).enclosed .postfixExpr
  have hexpression := Reads.expression_of_operand hsettled hoperand
    (Pattern.refused_at_end (by decide) rfl hends') (Rule.refused_at_end rfl hends')
  rw [hlast, ← hsettled] at hexpression
  rw [parseExpression_of_reads hexpression hends', expression_of_operand rfl, List.append_nil,
    expression_of_primary]

/-- A name that is not reserved is parsed as an identifier. -/
theorem parseExpression_of_name {word : String} (hname : IsName word) :
    parseExpression word = .ok ⟨.identifier word, .whole word⟩ := by
  have htext : (Cursor.ofText word).rest = word.toList ++ [] := (List.append_nil _).symm
  have hname' : (Cursor.ofText word).name = word :=
    Cursor.name_eq_of_rest htext hname.made (by simp)
  have hafter := Cursor.afterName_of_rest htext hname.made (by simp)
  have hends : (Cursor.ofText word).afterName.rest = [] := by rw [hafter]
  have hsettled : (Cursor.ofText word).skipGap = .ofText word :=
    Cursor.skipGap_of_isNameStart hname.start
  have hreads : Reads .spaced (.rule .identifier) (.ofText word) _ :=
    Reads.reads_identifier (hname'.symm ▸ hname)
  have hnoStruct (found : List Node × Cursor) :
      ¬Reads .spaced (.rule .structLiteral) (.ofText word) (some found) := by
    intro hstruct
    obtain ⟨_, _, hpath, hhead⟩ := hstruct.structLiteral_inv
    cases hpath.unique hreads
    rw [Cursor.skipGap_of_nil hends, hends] at hhead
    exact absurd hhead (by decide)
  have hwhole := (Rule.matches_of_reads hreads).takes.row.leads.whole hends
  rw [parseExpression_of_primary hsettled (hreads.primary_of_identifier hnoStruct) hends, ← hwhole]
  change Except.ok (Expression.mk (.identifier ((Cursor.ofText word).textTo
    (Cursor.ofText word).afterName)) _) = _
  rw [Cursor.textTo_afterName, hname']
  rfl

end Parsing

end Kestrel
