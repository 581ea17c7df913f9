import Kestrel.Proofs.Grammar.Match
import Kestrel.Proofs.Source.Cursor

/-!
# What a reading leaves

The nodes that a reading leaves stand in a row: each starts after the one before it ends, has its
own nodes in a row inside, and is as its rule's definition says. Two facts are read off the patterns
themselves: whether reading one takes anything, and of which rules it leaves nodes.
-/

namespace Kestrel

/-- The rules that take at least one character. -/
def Rule.advances : Rule → Bool
  | endOfInput | program | stringContent => false
  | _ => true

namespace Pattern

/-- The patterns that take at least one character, given which rules do. -/
def advances : Pattern → Bool
  | .word letters => !letters.isEmpty
  | .range _ _ | .anything => true
  | .rule name => name.advances
  | .seq first second => first.advances || second.advances
  | .alt first second => first.advances && second.advances
  | .start | .finish | .opt _ | .many _ | .absent _ => false

/-- The rows of rules of which reading a pattern may leave nodes. -/
def Yields (mode : Mode) : Pattern → List Rule → Prop
  | .rule name, rules => rules = if mode = .token then [] else [name]
  | .seq first second, rules =>
    ∃ front back, first.Yields mode front ∧ second.Yields mode back ∧ rules = front ++ back
  | .alt first second, rules => first.Yields mode rules ∨ second.Yields mode rules
  | .opt body, rules => rules = [] ∨ body.Yields mode rules
  | .many body, rules =>
    ∃ rounds : List (List Rule), (∀ round ∈ rounds, body.Yields mode round) ∧
      rules = rounds.flatten
  | .start, rules | .finish, rules | .word _, rules | .range _ _, rules | .anything, rules
  | .absent _, rules => rules = []

/-- Inside a token no rule leaves a node. -/
theorem Yields.eq_nil {pattern : Pattern} {rules : List Rule}
    (hyields : pattern.Yields .token rules) : rules = [] := by
  induction pattern generalizing rules with
  | start | finish | word | range | anything | absent => exact hyields
  | rule name => simpa [Yields] using hyields
  | seq first second ihFirst ihSecond =>
    obtain ⟨front, back, hfront, hback, rfl⟩ := hyields
    simp [ihFirst hfront, ihSecond hback]
  | alt first second ihFirst ihSecond => exact hyields.elim ihFirst ihSecond
  | opt body ih => exact hyields.elim id ih
  | many body ih =>
    obtain ⟨rounds, hrounds, rfl⟩ := hyields
    simpa using fun round h => ih (hrounds round h)

/-- A repetition of a rule leaves nodes of this rule only. -/
theorem Yields.eq_of_mem {name : Rule} {rules : List Rule}
    (hyields : (Pattern.many (.rule name)).Yields .spaced rules) : ∀ rule ∈ rules, rule = name := by
  obtain ⟨rounds, hrounds, rfl⟩ := hyields
  intro rule hmember
  obtain ⟨round, hround, hmember⟩ := List.mem_flatten.mp hmember
  rw [hrounds round hround] at hmember
  exact List.mem_singleton.mp hmember

end Pattern

/-- The table of the rules that take a character agrees with their definitions. -/
theorem Rule.advances_body (rule : Rule) : rule.advances → rule.definition.body.advances := by
  cases rule <;> decide +kernel

/-- Nodes one after the other between two cursors of a text, each with its own nodes in a row
inside. Between two of them there may be anything that a gap or a word takes. -/
inductive Row : Cursor → List Node → Cursor → Prop
  | nil {before after : Cursor} : before.LeadsTo after → Row before [] after
  | cons {before start stop after : Cursor} {rule : Rule} {text : String}
      {children others : List Node} :
      before.LeadsTo start → Row start children stop →
      (rule.advances → start.position.offset < stop.position.offset) →
      rule.definition.body.Yields rule.definition.mode (children.map Node.rule) →
      Row stop others after →
      Row before (⟨rule, start.position, stop.position, text, children⟩ :: others) after

namespace Row

variable {before middle after : Cursor} {nodes more : List Node}

/-- A row may have a gap before it. -/
theorem after_gap (hgap : before.LeadsTo middle) (hrow : Row middle nodes after) :
    Row before nodes after := by
  cases hrow with
  | nil hleads => exact .nil (hgap.trans hleads)
  | cons hleads hinside hadvances hshape hothers =>
    exact .cons (hgap.trans hleads) hinside hadvances hshape hothers

/-- A row with another one behind it is a row. -/
theorem append (hfirst : Row before nodes middle) (hsecond : Row middle more after) :
    Row before (nodes ++ more) after := by
  induction hfirst with
  | nil hleads => exact hsecond.after_gap hleads
  | cons hleads hinside hadvances hshape _ _ ih =>
    exact .cons hleads hinside hadvances hshape (ih hsecond)

/-- A row leads on in the text. -/
theorem leads (hrow : Row before nodes after) : before.LeadsTo after := by
  induction hrow with
  | nil hleads => exact hleads
  | cons hleads _ _ _ _ ihInside ihOthers => exact hleads.trans (ihInside.trans ihOthers)

end Row

/-- A reading of a pattern: its nodes in a row, of rules that the pattern may leave. -/
structure Pattern.Takes (pattern : Pattern) (mode : Mode) (before : Cursor) (nodes : List Node)
    (after : Cursor) : Prop where
  row : Row before nodes after
  advances : pattern.advances → before.position.offset < after.position.offset
  yields : pattern.Yields mode (nodes.map Node.rule)

namespace Pattern

variable {mode : Mode} {pattern : Pattern} {cursor next : Cursor} {nodes : List Node}

/-- A pattern that leaves no nodes and may be read without taking anything. -/
theorem Takes.still (hhalts : pattern.advances = false) (hyields : pattern.Yields mode []) :
    pattern.Takes mode cursor [] cursor :=
  ⟨.nil (.refl _), by simp [hhalts], hyields⟩

/-- A pattern that takes characters and leaves no nodes. -/
theorem Takes.silent (hleads : cursor.LeadsTo next)
    (hadvances : pattern.advances → cursor.position.offset < next.position.offset)
    (hyields : pattern.Yields mode []) : pattern.Takes mode cursor [] next :=
  ⟨.nil hleads, hadvances, hyields⟩

/-- A gap leads on in the text. -/
theorem between_leads (mode : Mode) (cursor : Cursor) :
    cursor.LeadsTo (between mode cursor) := by
  cases mode with
  | spaced => exact cursor.skipGap_leads
  | tight | token => exact .refl _

/-- What a first pattern and, after a gap, a second one take. -/
theorem Takes.seq {first second : Pattern} {last : Cursor} {more : List Node}
    (hfirst : first.Takes mode cursor nodes next)
    (hsecond : second.Takes mode (between mode next) more last) :
    (Pattern.seq first second).Takes mode cursor (nodes ++ more) last where
  row := hfirst.row.append (hsecond.row.after_gap (between_leads mode next))
  advances := by
    have hstart := hfirst.row.leads.offset_le
    have hgap := (between_leads mode next).offset_le
    have hstop := hsecond.row.leads.offset_le
    simp only [Pattern.advances, Bool.or_eq_true]
    rintro (h | h)
    · have := hfirst.advances h; omega
    · have := hsecond.advances h; omega
  yields := ⟨_, _, hfirst.yields, hsecond.yields, List.map_append⟩

/-- One more round of a repetition. -/
theorem Takes.round {more : List Node} {last : Cursor}
    (hsofar : (Pattern.many pattern).Takes mode cursor nodes next)
    (hround : pattern.Takes mode (between mode next) more last) :
    (Pattern.many pattern).Takes mode cursor (nodes ++ more) last where
  row := hsofar.row.append (hround.row.after_gap (between_leads mode next))
  advances := by simp [Pattern.advances]
  yields := by
    obtain ⟨rounds, hrounds, hrules⟩ := hsofar.yields
    refine ⟨rounds ++ [more.map Node.rule], ?_, by simp [hrules]⟩
    simp only [List.mem_append, List.mem_singleton]
    rintro _ (h | rfl)
    · exact hrounds _ h
    · exact hround.yields

end Pattern

/-- What a match takes. -/
theorem Matches.takes {mode : Mode} {pattern : Pattern} {cursor next : Cursor} {nodes : List Node}
    (hfound : Matches mode pattern cursor nodes next) : pattern.Takes mode cursor nodes next := by
  induction hfound with
  | start | finish | absent => exact .still rfl rfl
  | word hfound =>
    obtain ⟨hleads, hadvances⟩ := Cursor.leadsTo_of_word? hfound
    exact .silent hleads (by simpa [Pattern.advances] using hadvances) rfl
  | range htaken | anything htaken =>
    obtain ⟨hleads, hadvances⟩ := Cursor.leadsTo_of_take? htaken
    exact .silent hleads (fun _ => hadvances) rfl
  | @token name _ _ _ _ ih =>
    -- inside a token the rule adds no node to those of its inside, which are none
    refine ⟨ih.row, fun h => ih.advances (name.advances_body h), ?_⟩
    simpa [Pattern.Yields] using ih.yields.eq_nil
  | @node _ name _ _ _ houtside _ ih =>
    have hadvances' := fun h => ih.advances (name.advances_body h)
    refine ⟨.cons (.refl _) ih.row hadvances' ih.yields (.nil (.refl _)), hadvances', ?_⟩
    simp [Pattern.Yields, houtside]
  | seq _ _ ihFirst ihSecond => exact ihFirst.seq ihSecond
  | altFirst _ ih =>
    exact ⟨ih.row, fun h => ih.advances (Bool.and_eq_true_iff.mp h).1, .inl ih.yields⟩
  | altSecond _ ih =>
    exact ⟨ih.row, fun h => ih.advances (Bool.and_eq_true_iff.mp h).2, .inr ih.yields⟩
  | optNone => exact .still rfl (.inl rfl)
  | optSome _ ih => exact ⟨ih.row, by simp [Pattern.advances], .inr ih.yields⟩
  | manyNone => exact .still rfl ⟨[], by simp, rfl⟩
  | @manyFirst _ _ _ _ nodes _ ih =>
    refine ⟨ih.row, by simp [Pattern.advances], [nodes.map Node.rule], ?_, by simp⟩
    simpa using ih.yields
  | manyNext _ _ ihSofar ihRound => exact ihSofar.round ihRound

section Advancing

variable {mode : Mode} {pattern : Pattern} {cursor next : Cursor} {nodes : List Node}
  (hfound : Matches mode pattern cursor nodes next) (hadvances : pattern.advances)
include hfound hadvances

/-- After a pattern that takes something less is left. -/
theorem Matches.length_lt : next.rest.length < cursor.rest.length :=
  hfound.takes.row.leads.length_lt (hfound.takes.advances hadvances)

/-- What takes something does not end where it starts. -/
theorem Matches.next_ne : next ≠ cursor := by
  rintro rfl
  exact Nat.lt_irrefl _ (hfound.length_lt hadvances)

/-- A pattern that takes something does not match at the end of a text. -/
theorem Matches.rest_ne_nil : cursor.rest ≠ [] := by
  intro hends
  have hshort := hfound.length_lt hadvances
  rw [hends] at hshort
  exact Nat.not_lt_zero _ hshort

end Advancing

end Kestrel
