import Kestrel.Proofs.Grammar.Identifier
import Kestrel.Proofs.Number.Literal
import Kestrel.Proofs.Syntax.Entry
import Kestrel.Proofs.Syntax.Faults

/-!
# What nodes promise

Some rules promise more than the parts that their syntax tree is made from: an identifier is a name
that is not reserved, a number literal denotes a number that is not negative, and a struct literal
has a field. Every node of a tree that is read keeps what its rule promises.
-/

namespace Kestrel

/-- What the rule of a node promises of its text and of the nodes inside. -/
structure Node.Promises (node : Node) : Prop where
  madeOf : node.rule.MadeOf (node.children.map Node.rule)
  name : node.rule = .identifier → IsName node.text
  number : node.rule = .number → ∀ x, readNumber? node.text.toList = some x → IsMagnitude x
  fields : node.rule = .structLiteral → 2 ≤ node.children.length

/-- A number literal denotes a number that is not negative. -/
theorem Pattern.isMagnitude_of_spells {text : List Char} {x : Float}
    (hspells : Rule.number.definition.body.Spells text) (hread : readNumber? text = some x) :
    IsMagnitude x := by
  obtain ⟨whole, rest, hwhole, -, rfl⟩ := hspells
  obtain ⟨c, more, rfl, hc⟩ := (isDigits_of_spells hwhole).exists_cons
  exact isMagnitude_of_read hc hread

/-- A struct literal has a path and, after it, at least one field. -/
theorem Rule.two_le_of_structLiteral {rules : List Rule}
    (hyields : Rule.structLiteral.definition.body.Yields .spaced rules) : 2 ≤ rules.length := by
  obtain ⟨_, _, rfl, ⟨_, _, rfl, ⟨fields, _, ⟨_, _, rfl, -, rfl⟩, rfl, rfl⟩, rfl⟩, rfl⟩ := hyields
  simp

namespace Reads

variable {mode : Mode} {pattern : Pattern} {cursor next : Cursor} {verdict : Verdict}
  {name : Rule} {children : List Node}

/-- The node that a rule leaves keeps what the rule promises. -/
theorem promises_nodeOf
    (hinside : Reads name.definition.mode name.definition.body cursor (some (children, next))) :
    (name.nodeOf cursor next children).Promises := by
  constructor
  · have hdescends := Pattern.descends_ten name.descends_body true
    exact Rule.madeOf_of_yields (Pattern.matches_of_reads hdescends hinside).takes.yields
  · rintro rfl
    have hreads : Reads .spaced (.rule .identifier) cursor _ := .node (by decide) hinside rfl
    obtain ⟨hname, rfl, -⟩ := hreads.identifier_inv
    change IsName (cursor.textTo cursor.afterName)
    rwa [Cursor.textTo_afterName]
  · rintro rfl x hread
    exact Pattern.isMagnitude_of_spells
      (Pattern.matches_of_reads (by decide) hinside).spells_textTo hread
  · rintro rfl
    have hyields := (Pattern.matches_of_reads (by decide) hinside).takes.yields
    change 2 ≤ children.length
    simpa using Rule.two_le_of_structLiteral hyields

/-- Whatever is read, the nodes that are left keep what their rules promise, inside and out. -/
theorem promises (hreads : Reads mode pattern cursor verdict) :
    ∀ found ∈ verdict, ∀ node ∈ found.1, node.Throughout Node.Promises := by
  induction hreads with
  | start hdecided | finish hdecided =>
    rintro found hfound
    rw [hdecided] at hfound
    split at hfound <;> cases hfound
    exact List.forall_mem_nil _
  | word hdecided | range hdecided | anything hdecided =>
    rintro found hfound
    rw [hdecided] at hfound
    obtain ⟨_, -, rfl⟩ := Option.map_eq_some_iff.mp hfound
    exact List.forall_mem_nil _
  | token _ ih | altFirst _ ih | optSome _ ih | manyStop _ _ ih | altSecond _ _ _ ih => exact ih
  | node _ hinside hdecided ih =>
    rintro found hfound
    rw [hdecided] at hfound
    obtain ⟨⟨children, next⟩, rfl, rfl⟩ := Option.map_eq_some_iff.mp hfound
    exact List.forall_mem_singleton.mpr (.intro hinside.promises_nodeOf (ih _ rfl))
  | seq _ _ hdecided ihFront ihBack =>
    rintro found hfound
    rw [hdecided] at hfound
    obtain ⟨back, rfl, rfl⟩ := Option.map_eq_some_iff.mp hfound
    exact List.forall_mem_append.mpr ⟨ihFront _ rfl, ihBack _ rfl⟩
  | seqRefused => rintro _ ⟨⟩
  | optNone | manyNone =>
    rintro _ ⟨⟩
    exact List.forall_mem_nil _
  | manyNext _ _ _ ihRound _ ihOthers =>
    rintro _ ⟨⟩
    exact List.forall_mem_append.mpr ⟨ihRound _ rfl, ihOthers _ rfl⟩
  | absent _ hdecided =>
    rintro found hfound
    rw [hdecided] at hfound
    split at hfound <;> cases hfound
    exact List.forall_mem_nil _

end Reads

/-- The part that a whole text forms keeps what its rules promise. -/
theorem exists_promises_of_readPart {rule : Rule} {source : String} {part : Part}
    (hread : readPart rule source = .ok part) :
    ∃ node : Node, part = node.part ∧ node.Throughout Node.Promises := by
  obtain ⟨node, others, next, hreads, rfl⟩ := exists_reads_of_readPart hread
  exact ⟨node, rfl, hreads.promises _ rfl node (List.mem_cons_self ..)⟩

end Kestrel
