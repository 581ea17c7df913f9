import Kestrel.Proofs.Grammar.Termination
import Mathlib.Data.Prod.Lex
import Mathlib.Logic.Relation

/-!
# What is read inside what

A pattern is applied by applying its parts, and a rule by applying its definition. Applications that
are inside each other go down: less of the text is left, or only lower rules may still be opened, or
the pattern is a part of the outer one. So nothing is applied inside itself before something was
taken, and no applications go on inside each other for ever.
-/

namespace Kestrel

/-- A pattern that is read at a cursor. -/
structure Application where
  mode : Mode
  pattern : Pattern
  cursor : Cursor

namespace Application

/-- A pattern is read by reading a part of it: at the same place, or after what was taken by the
parts and rounds before it. -/
inductive Part : Application → Application → Prop
  | first {mode : Mode} {first second : Pattern} {cursor : Cursor} :
      Part ⟨mode, .seq first second, cursor⟩ ⟨mode, first, cursor⟩
  | second {mode : Mode} {first second : Pattern} {cursor next : Cursor} {nodes : List Node}
      (hfront : Matches mode first cursor nodes next) :
      Part ⟨mode, .seq first second, cursor⟩ ⟨mode, second, Pattern.between mode next⟩
  | left {mode : Mode} {first second : Pattern} {cursor : Cursor} :
      Part ⟨mode, .alt first second, cursor⟩ ⟨mode, first, cursor⟩
  | right {mode : Mode} {first second : Pattern} {cursor : Cursor} :
      Part ⟨mode, .alt first second, cursor⟩ ⟨mode, second, cursor⟩
  | opt {mode : Mode} {body : Pattern} {cursor : Cursor} :
      Part ⟨mode, .opt body, cursor⟩ ⟨mode, body, cursor⟩
  | round {mode : Mode} {body : Pattern} {cursor : Cursor} :
      Part ⟨mode, .many body, cursor⟩ ⟨mode, body, cursor⟩
  | again {mode : Mode} {body : Pattern} {cursor next : Cursor} {nodes : List Node}
      (hsofar : Matches mode (.many body) cursor nodes next) :
      Part ⟨mode, .many body, cursor⟩ ⟨mode, body, Pattern.between mode next⟩
  | absent {mode : Mode} {body : Pattern} {cursor : Cursor} :
      Part ⟨mode, .absent body, cursor⟩ ⟨.token, body, cursor⟩

/-- An application makes another one: of a part of its pattern, or of what its rule consists of. -/
inductive Makes : Application → Application → Prop
  | part {outer inner : Application} (hpart : Part outer inner) : Makes outer inner
  | body {mode : Mode} {name : Rule} {cursor : Cursor} :
      Makes ⟨mode, .rule name, cursor⟩
        ⟨mode.inside name.definition.mode, name.definition.body, cursor⟩

/-- Between two applications there is a chain of applications that make each other. -/
def Nests (outer inner : Application) : Prop := Relation.TransGen Makes outer inner

end Application

namespace Pattern

/-- A bound of the heights of the rules that a pattern may open before something is taken. -/
def height : Pattern → Nat
  | .rule name => name.height + 1
  | .seq first second =>
    if first.advances then first.height else max first.height second.height
  | .alt first second => max first.height second.height
  | .opt body | .many body | .absent body => body.height
  | .start | .finish | .word _ | .range _ _ | .anything => 0

variable {pattern first second : Pattern} {height : Nat}

/-- The first part of a sequence is no higher than the sequence. -/
theorem height_first_le : first.height ≤ (Pattern.seq first second).height := by
  conv_rhs => unfold Pattern.height
  split
  · exact Nat.le_refl _
  · exact Nat.le_max_left _ _

/-- What a second part opens counts where the first one may take nothing. -/
theorem height_second_le (hhalts : ¬ first.advances) :
    second.height ≤ (Pattern.seq first second).height := by
  conv_rhs => unfold Pattern.height
  rw [if_neg hhalts]
  exact Nat.le_max_right _ _

/-- What opens only rules below a height is not higher. -/
theorem height_le_of_descends (hdescends : pattern.descends height true) :
    pattern.height ≤ height := by
  induction pattern with
  | start | finish | word | range | anything => exact Nat.zero_le _
  | rule name => exact Nat.succ_le_of_lt (of_decide_eq_true hdescends)
  | seq first second ihFirst ihSecond =>
    obtain ⟨hfirst, hsecond⟩ := Bool.and_eq_true_iff.mp hdescends
    unfold Pattern.height
    split
    · exact ihFirst hfirst
    · next hhalts =>
      rw [Bool.eq_false_iff.mpr hhalts] at hsecond
      exact Nat.max_le.mpr ⟨ihFirst hfirst, ihSecond hsecond⟩
  | alt first second ihFirst ihSecond =>
    obtain ⟨hfirst, hsecond⟩ := Bool.and_eq_true_iff.mp hdescends
    exact Nat.max_le.mpr ⟨ihFirst hfirst, ihSecond hsecond⟩
  | opt body ih | absent body ih => exact ih hdescends
  | many body ih =>
    simp only [Pattern.descends, Bool.and_eq_true] at hdescends
    exact ih hdescends.1.2

end Pattern

/-- A rule is higher than what it consists of. -/
theorem Rule.height_body_lt (rule : Rule) :
    rule.definition.body.height < (Pattern.rule rule).height :=
  Nat.lt_succ_of_le (Pattern.height_le_of_descends rule.descends_body)

namespace Application

variable {outer inner : Application}

/-- What is left of the text, how high the rules are that may still be opened, and how large the
pattern is. -/
noncomputable def measure (application : Application) : Nat ×ₗ Nat ×ₗ Nat :=
  toLex (application.cursor.rest.length,
    toLex (application.pattern.height, sizeOf application.pattern))

/-- Less is left, or it is no more and the pattern is lower, or it is no higher and smaller. -/
theorem measure_lt_iff : inner.measure < outer.measure ↔
    inner.cursor.rest.length < outer.cursor.rest.length ∨
      inner.cursor.rest.length = outer.cursor.rest.length ∧
        (inner.pattern.height < outer.pattern.height ∨
          inner.pattern.height = outer.pattern.height ∧
            sizeOf inner.pattern < sizeOf outer.pattern) := by
  simp only [measure, Prod.Lex.toLex_lt_toLex]

namespace Part

/-- The parts of a pattern are read where it is read, or further on. -/
theorem leads (hpart : Part outer inner) : outer.cursor.LeadsTo inner.cursor := by
  cases hpart with
  | second hfront => exact hfront.takes.row.leads.trans (Pattern.between_leads _ _)
  | again hsofar => exact hsofar.takes.row.leads.trans (Pattern.between_leads _ _)
  | _ => exact .refl _

/-- Where nothing was taken, a part is not higher than the whole. -/
theorem height_le (hpart : Part outer inner)
    (hlevel : inner.cursor.rest.length = outer.cursor.rest.length) :
    inner.pattern.height ≤ outer.pattern.height := by
  cases hpart with
  | first => exact Pattern.height_first_le
  | @second mode first _ _ next _ hfront =>
    have hhalts : ¬ first.advances := by
      intro hadvances
      have hshort := hfront.length_lt hadvances
      have hgap := (Pattern.between_leads mode next).length_le
      dsimp only at hlevel
      omega
    exact Pattern.height_second_le hhalts
  | left => exact Nat.le_max_left _ _
  | right => exact Nat.le_max_right _ _
  | opt | round | again | absent => exact Nat.le_refl _

/-- A part of a pattern is smaller than the pattern. -/
theorem sizeOf_lt (hpart : Part outer inner) : sizeOf inner.pattern < sizeOf outer.pattern := by
  cases hpart <;> simp only [Pattern.seq.sizeOf_spec, Pattern.alt.sizeOf_spec,
    Pattern.opt.sizeOf_spec, Pattern.many.sizeOf_spec, Pattern.absent.sizeOf_spec] <;> omega

end Part

namespace Makes

/-- What an application asks for is at its place of the text or further on. -/
theorem leads (hmakes : Makes outer inner) : outer.cursor.LeadsTo inner.cursor := by
  cases hmakes with
  | part hpart => exact hpart.leads
  | body => exact .refl _

/-- An application that is made is further down. -/
theorem measure_lt (hmakes : Makes outer inner) : inner.measure < outer.measure := by
  rw [measure_lt_iff]
  cases hmakes with
  | part hpart =>
    rcases Nat.lt_or_eq_of_le hpart.leads.length_le with hshort | hlevel
    · exact .inl hshort
    · refine .inr ⟨hlevel, ?_⟩
      rcases Nat.lt_or_eq_of_le (hpart.height_le hlevel) with hlower | hheight
      · exact .inl hlower
      · exact .inr ⟨hheight, hpart.sizeOf_lt⟩
  | body => exact .inr ⟨rfl, .inl (Rule.height_body_lt _)⟩

/-- No chain of applications that make each other goes on for ever. -/
theorem wellFounded : WellFounded fun inner outer : Application => Makes outer inner :=
  Subrelation.wf measure_lt (InvImage.wf measure wellFounded_lt)

end Makes

namespace Nests

/-- An application inside another one is at the same place of the text or further on. -/
theorem leads (hnests : Nests outer inner) : outer.cursor.LeadsTo inner.cursor := by
  induction hnests with
  | single hmakes => exact hmakes.leads
  | tail _ hmakes ih => exact ih.trans hmakes.leads

/-- An application inside another one has a smaller measure. -/
theorem measure_lt (hnests : Nests outer inner) : inner.measure < outer.measure := by
  induction hnests with
  | single hmakes => exact hmakes.measure_lt
  | tail _ hmakes ih => exact hmakes.measure_lt.trans ih

/-- Nothing is applied inside itself before something was taken. -/
theorem further {mode mode' : Mode} {pattern : Pattern} {cursor later : Cursor}
    (hnests : Nests ⟨mode, pattern, cursor⟩ ⟨mode', pattern, later⟩) :
    cursor.position.offset < later.position.offset := by
  rcases measure_lt_iff.mp hnests.measure_lt with hshort | ⟨-, hlower | ⟨-, hsize⟩⟩
  · exact hnests.leads.offset_lt hshort
  · exact absurd hlower (Nat.lt_irrefl _)
  · exact absurd hsize (Nat.lt_irrefl _)

end Nests

end Application

end Kestrel
