import Kestrel.Proofs.Grammar.Reading
import Kestrel.Proofs.Source.Comment

/-!
# What a pattern may start with

Which characters a pattern may take first is read off the patterns, given which rules may take them.
Where a character comes next that a pattern does not take first, the pattern takes nothing at all.
-/

namespace Kestrel

namespace Pattern

/-- Whether a pattern may take something where a certain character comes next, or the end of the
text, given which rules may. -/
def mayTake (opens : Rule → Bool) (first : Option Char) : Pattern → Bool
  | .word letters => !letters.isEmpty && letters.head? == first
  | .range low high => first.any fun c => low ≤ c && c ≤ high
  | .anything => first.isSome
  | .rule name => opens name
  | .seq front back =>
    front.mayTake opens first || !front.advances && back.mayTake opens first
  | .alt left right => left.mayTake opens first || right.mayTake opens first
  | .opt body | .many body => body.mayTake opens first
  | .start | .finish | .absent _ => false

/-- Where no gap comes next, the next part stands right here. -/
theorem between_of_settled {cursor : Cursor} (hsettled : cursor.skipGap = cursor) (mode : Mode) :
    between mode cursor = cursor := by
  cases mode with
  | spaced => exact hsettled
  | tight | token => rfl

/-- After the gap between two parts there is no other one. -/
theorem between_between (mode : Mode) (cursor : Cursor) :
    between mode (between mode cursor) = between mode cursor := by
  cases mode with
  | spaced => exact cursor.skipGap_skipGap
  | tight | token => rfl

end Pattern

namespace Cursor

variable {cursor next : Cursor} {test : Char → Bool} {letters : List Char} {c : Char}

/-- No gap starts with a character that is neither a blank nor the mark of a comment. -/
theorem skipGap_of_head (hhead : cursor.rest.head? = some c) (hnoBlank : isBlank c = false)
    (hnoSlash : c ≠ '/') : cursor.skipGap = cursor := by
  obtain ⟨rest, position⟩ := cursor
  obtain ⟨rest, rfl⟩ := List.head?_eq_some_iff.mp hhead
  exact GapState.skip_of_not_opens hnoBlank (opensComment_of_ne hnoSlash)

/-- At the end of a text no gap comes. -/
theorem skipGap_of_nil (hends : cursor.rest = []) : cursor.skipGap = cursor := by
  obtain ⟨rest, position⟩ := cursor
  cases hends
  rfl

/-- A character that was taken came next and passed the test. -/
theorem any_head_of_take? (htaken : cursor.take? test = some next) :
    cursor.rest.head?.any test := by
  unfold take? at htaken
  split at htaken
  · contradiction
  · rename_i c rest hrest
    split at htaken
    · rwa [hrest]
    · contradiction

end Cursor

/-- Where nothing comes next that a pattern may take first, it takes nothing. -/
theorem Matches.next_eq_of_mayTake {opens : Rule → Bool} {mode : Mode} {pattern : Pattern}
    {cursor next : Cursor} {nodes : List Node} {first : Option Char}
    (hfound : Matches mode pattern cursor nodes next)
    (htable : ∀ rule, opens rule = false → rule.definition.body.mayTake opens first = false)
    (hsettled : cursor.skipGap = cursor) (hhead : cursor.rest.head? = first)
    (hshut : pattern.mayTake opens first = false) : next = cursor := by
  induction hfound with
  | start | finish | optNone | manyNone | absent => rfl
  | @word _ letters _ _ hfound =>
    cases letters with
    | nil => cases hfound; rfl
    | cons c letters =>
      obtain ⟨between, hbetween, -⟩ : ∃ between, Cursor.take? _ (· == c) = some between ∧
          between.word? letters = some _ := by
        rw [Cursor.word?] at hfound
        split at hfound
        · contradiction
        · exact ⟨_, ‹_›, hfound⟩
      have hhead' := Cursor.any_head_of_take? hbetween
      rw [hhead] at hhead'
      cases first with
      | none => cases hhead'
      | some first => simp_all [Pattern.mayTake]
  | range htaken =>
    have hhead' := Cursor.any_head_of_take? htaken
    rw [hhead] at hhead'
    exact absurd (hhead'.symm.trans hshut) (by decide)
  | anything htaken =>
    have hhead' := Cursor.any_head_of_take? htaken
    rw [hhead] at hhead'
    cases first with
    | none => cases hhead'
    | some first => cases hshut
  | token _ ih | node _ _ ih => exact ih hsettled hhead (htable _ hshut)
  | seq hfront _ ihFront ihBack =>
    obtain ⟨hfront', hback⟩ := Bool.or_eq_false_iff.mp hshut
    obtain rfl := ihFront hsettled hhead hfront'
    rw [Pattern.between_of_settled hsettled] at ihBack
    refine ihBack hsettled hhead ((Bool.and_eq_false_iff.mp hback).resolve_left fun hadvances => ?_)
    exact hfront.next_ne (by simpa using hadvances) rfl
  | altFirst _ ih => exact ih hsettled hhead (Bool.or_eq_false_iff.mp hshut).1
  | altSecond _ ih => exact ih hsettled hhead (Bool.or_eq_false_iff.mp hshut).2
  | optSome _ ih | manyFirst _ ih => exact ih hsettled hhead hshut
  | manyNext _ _ ihSofar ihRound =>
    obtain rfl := ihSofar hsettled hhead hshut
    rw [Pattern.between_of_settled hsettled] at ihRound
    exact ihRound hsettled hhead hshut

end Kestrel
