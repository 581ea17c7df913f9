import Kestrel.Proofs.Grammar.Verdict
import Kestrel.Proofs.Source.Comment

/-!
# Reading the same text elsewhere

What is read in a text does not depend on where the text stands: further on in a source the same
nodes are found with their places moved along. Only the rules for whole texts ask for a place.
-/

namespace Kestrel

variable (bytes lines : Nat)

/-- A place that is some bytes and lines further on. -/
def Position.moved (position : Position) : Position :=
  ⟨position.offset + bytes, position.line + lines⟩

/-- A cursor before the same text some bytes and lines further on. -/
def Cursor.moved (cursor : Cursor) : Cursor := ⟨cursor.rest, cursor.position.moved bytes lines⟩

mutual

/-- A node that is found some bytes and lines further on. -/
def Node.moved : Node → Node
  | ⟨rule, start, stop, text, children⟩ =>
    ⟨rule, start.moved bytes lines, stop.moved bytes lines, text, movedNodes children⟩

/-- Nodes that are found some bytes and lines further on. -/
def movedNodes : List Node → List Node
  | [] => []
  | node :: others => node.moved :: movedNodes others

end

/-- Where a reading in progress is, if it goes on some bytes and lines further on. -/
def GapState.moved : GapState → GapState
  | .outside => .outside
  | .line => .line
  | .block opened => .block (opened.moved bytes lines)

/-- A verdict on the same text some bytes and lines further on. -/
def Verdict.moved (verdict : Verdict) : Verdict :=
  verdict.map fun found => (movedNodes bytes lines found.1, found.2.moved bytes lines)

namespace Pattern

/-- Whether a pattern asks nowhere for the start of the text. -/
def startless : Pattern → Bool
  | .start => false
  | .rule name => name ≠ .program ∧ name ≠ .singleExpression
  | .seq first second | .alt first second => first.startless && second.startless
  | .opt body | .many body | .absent body => body.startless
  | .finish | .word _ | .range _ _ | .anything => true

end Pattern

/-- Only the rules for whole texts ask for their start, and no rule contains them. -/
theorem Rule.startless_body {rule : Rule} (hpart : (Pattern.rule rule).startless) :
    rule.definition.body.startless := by
  cases rule <;> first | contradiction | decide +kernel

/-- Rows of nodes are moved one by one. -/
theorem movedNodes_append (nodes more : List Node) :
    movedNodes bytes lines (nodes ++ more) =
      movedNodes bytes lines nodes ++ movedNodes bytes lines more := by
  induction nodes with
  | nil => rfl
  | cons node nodes ih => simp [movedNodes, ih]

/-- It makes no difference whether a place is moved before or after a character. -/
theorem Position.after_moved (position : Position) (c : Char) :
    (position.moved bytes lines).after c = (position.after c).moved bytes lines := by
  simp only [after, moved, mk.injEq]
  refine ⟨by omega, ?_⟩
  split <;> omega

namespace Cursor

variable {bytes lines} {cursor : Cursor}

/-- A character is taken in a moved text as in the text. -/
theorem take?_moved (test : Char → Bool) : (cursor.moved bytes lines).take? test =
    (cursor.take? test).map (moved bytes lines) := by
  obtain ⟨rest, position⟩ := cursor
  cases rest with
  | nil => rfl
  | cons c rest =>
    simp only [moved, take?, Position.after_moved]
    split <;> rfl

/-- A word is taken in a moved text as in the text. -/
theorem word?_moved (letters : List Char) : (cursor.moved bytes lines).word? letters =
    (cursor.word? letters).map (moved bytes lines) := by
  induction letters generalizing cursor with
  | nil => rfl
  | cons c letters ih =>
    simp only [word?, take?_moved]
    cases cursor.take? (· == c) with
    | none => rfl
    | some next => exact ih

/-- The text between two cursors is the same if both are moved. -/
theorem textTo_moved (next : Cursor) :
    (cursor.moved bytes lines).textTo (next.moved bytes lines) = cursor.textTo next := by
  simp only [textTo, moved, Position.moved, Nat.add_sub_add_right]

end Cursor

/-- A gap is the same gap further on. -/
theorem GapState.skip_moved (state : GapState) (rest : List Char) (position : Position) :
    (state.moved bytes lines).skip rest (position.moved bytes lines) =
      (state.skip rest position).moved bytes lines := by
  fun_induction GapState.skip state rest position with
  | case1 | case6 | case9 => rfl
  | case2 _ _ ih =>
    simpa only [moved, skip, Position.after_moved] using ih
  | case3 _ _ ih =>
    simpa only [moved, skip, Position.after_moved, Cursor.moved] using ih
  | case4 _ c _ hline hblock hblank ih =>
    rw [moved, skip, if_pos hblank, Position.after_moved]
    · exact ih
    · exact hline
    · exact hblock
  | case5 _ c _ hline hblock hblank =>
    rw [moved, skip, if_neg hblank]
    · rfl
    · exact hline
    · exact hblock
  | case7 _ _ ih =>
    rw [moved, skip, if_pos rfl, Position.after_moved]
    exact ih
  | case8 _ _ _ hother ih =>
    rw [moved, skip, if_neg hother, Position.after_moved]
    exact ih
  | case10 _ _ _ ih =>
    simpa only [moved, skip, Position.after_moved] using ih
  | case11 _ _ _ _ hinside ih =>
    rw [moved, skip, Position.after_moved]
    · exact ih
    · exact hinside

/-- A gap in a moved text is as long as in the text. -/
theorem Cursor.skipGap_moved (cursor : Cursor) :
    (cursor.moved bytes lines).skipGap = cursor.skipGap.moved bytes lines :=
  GapState.skip_moved bytes lines .outside cursor.rest cursor.position

/-- What comes next in a moved text is what comes next in the text. -/
theorem Pattern.between_moved (mode : Mode) (cursor : Cursor) :
    between mode (cursor.moved bytes lines) = (between mode cursor).moved bytes lines := by
  cases mode with
  | spaced => exact cursor.skipGap_moved bytes lines
  | tight | token => rfl

/-- The node of a moved text is the node of the text, moved. -/
theorem Rule.nodeOf_moved (name : Rule) (cursor next : Cursor) (children : List Node) :
    name.nodeOf (cursor.moved bytes lines) (next.moved bytes lines)
      (movedNodes bytes lines children) =
        (name.nodeOf cursor next children).moved bytes lines := by
  simp only [nodeOf, Node.moved, Cursor.textTo_moved]
  rfl

/-- Where a text stands does not matter for what is read in it. -/
theorem Reads.moved {mode : Mode} {pattern : Pattern} {cursor : Cursor} {verdict : Verdict}
    (hreads : Reads mode pattern cursor verdict) (hstartless : pattern.startless) :
    Reads mode pattern (cursor.moved bytes lines) (verdict.moved bytes lines) := by
  induction hreads with
  | start => contradiction
  | @finish _ cursor _ hdecided =>
    refine .finish ?_
    rw [hdecided]
    change _ = if cursor.rest.isEmpty then _ else _
    split <;> rfl
  | @word _ letters cursor _ hdecided =>
    refine .word ?_
    rw [hdecided, Cursor.word?_moved]
    cases cursor.word? letters <;> rfl
  | @range _ low high cursor _ hdecided =>
    refine .range ?_
    rw [hdecided, Cursor.take?_moved]
    cases cursor.take? fun c => low ≤ c && c ≤ high <;> rfl
  | @anything _ cursor _ hdecided =>
    refine .anything ?_
    rw [hdecided, Cursor.take?_moved]
    cases cursor.take? fun _ => true <;> rfl
  | token hinside ih => exact .token (ih (Rule.startless_body hstartless))
  | @node _ name cursor inner _ houtside hinside hdecided ih =>
    refine .node houtside (ih (Rule.startless_body hstartless)) ?_
    rw [hdecided]
    cases inner with
    | none => rfl
    | some found =>
      simp only [Verdict.moved, Option.map_some, movedNodes, Rule.nodeOf_moved]
  | @seq _ _ _ _ _ nodes later _ hfront hback hdecided ihFront ihBack =>
    obtain ⟨hfirst, hsecond⟩ := Bool.and_eq_true_iff.mp hstartless
    refine .seq (ihFront hfirst) (Pattern.between_moved .. ▸ ihBack hsecond) ?_
    rw [hdecided]
    cases later with
    | none => rfl
    | some found =>
      simp only [Verdict.moved, Option.map_some, movedNodes_append]
  | seqRefused hfront ih => exact .seqRefused (ih (Bool.and_eq_true_iff.mp hstartless).1)
  | altFirst hinside ih => exact .altFirst (ih (Bool.and_eq_true_iff.mp hstartless).1)
  | altSecond hrefused hinside ihRefused ihInside =>
    obtain ⟨hfirst, hsecond⟩ := Bool.and_eq_true_iff.mp hstartless
    exact .altSecond (ihRefused hfirst) (ihInside hsecond)
  | optSome hinside ih => exact .optSome (ih hstartless)
  | optNone hrefused ih => exact .optNone (ih hstartless)
  | manyNone hrefused ih => exact .manyNone (ih hstartless)
  | manyStop hround hrefused ihRound ihRefused =>
    exact .manyStop (ihRound hstartless) (Pattern.between_moved .. ▸ ihRefused hstartless)
  | manyNext hround hagain hothers ihRound ihAgain ihOthers =>
    have hothers' := ihOthers hstartless
    rw [← Pattern.between_moved] at hothers'
    have hall := Reads.manyNext (ihRound hstartless)
      (Pattern.between_moved .. ▸ ihAgain hstartless) hothers'
    rwa [← movedNodes_append] at hall
  | @absent _ _ cursor inner _ hinside hdecided ih =>
    refine .absent (ih hstartless) ?_
    rw [hdecided]
    cases inner <;> rfl

end Kestrel
