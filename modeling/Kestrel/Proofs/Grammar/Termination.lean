import Kestrel.Proofs.Grammar.Reading
import Kestrel.Proofs.Grammar.Verdict

/-!
# Reading comes to an end

The rules have heights. At one place of the text a rule opens only lower ones, so that no rule is
opened inside itself before something was taken; and every round of a repetition takes something.
So a depth that is in proportion to the text suffices, and whatever is read, there is a verdict.
-/

namespace Kestrel

/-- How many rules may be open inside a rule before something is taken. -/
def Rule.height : Rule → Nat
  | program => 9
  | statement | sliceBounds => 8
  | singleExpression | expressionStatement | sliceStart | sliceEnd => 7
  | expression => 6
  | binaryExpr | assignment => 5
  | postfixExpr => 4
  | structLiteral => 3
  | structPath | structField | methodDeclaration | dictionaryEntry => 2
  | identifier | varDeclaration | functionDeclaration | structDeclaration | ifStatement
  | elseifClause | elseClause | loopStatement | forStatement | tryStatement | catchClause
  | finallyClause | returnStatement | breakStatement | continueStatement | importStatement
  | functionLiteral => 1
  | _ => 0

/-- Whether a pattern opens only rules below a height where nothing has been taken yet, which is
where it is `fresh`, and repeats only what takes something. -/
def Pattern.descends (height : Nat) : (fresh : Bool) → Pattern → Bool
  | fresh, .rule name => !fresh || name.height < height
  | fresh, .seq first second =>
    first.descends height fresh && second.descends height (fresh && !first.advances)
  | fresh, .alt first second => first.descends height fresh && second.descends height fresh
  | fresh, .opt body | fresh, .absent body => body.descends height fresh
  | fresh, .many body =>
    body.advances && body.descends height fresh && body.descends height false
  | _, .start | _, .finish | _, .word _ | _, .range _ _ | _, .anything => true

/-- Every rule opens only lower rules before it takes something. -/
theorem Rule.descends_body (rule : Rule) :
    rule.definition.body.descends rule.height true := by
  cases rule <;> decide +kernel

/-- The heights of all rules are below ten. -/
theorem Rule.height_lt (rule : Rule) : rule.height < 10 := by
  cases rule <;> decide

/-- Whether a pattern repeats only what takes something does not depend on where it stands. -/
theorem Pattern.descends_ten {pattern : Pattern} {height : Nat} {fresh : Bool}
    (hdescends : pattern.descends height fresh) (fresh' : Bool) : pattern.descends 10 fresh' := by
  induction pattern generalizing fresh fresh' with
  | start | finish | word | range | anything => rfl
  | rule name => simp [Pattern.descends, name.height_lt]
  | seq first second ihFirst ihSecond | alt first second ihFirst ihSecond =>
    obtain ⟨hfirst, hsecond⟩ := Bool.and_eq_true_iff.mp hdescends
    exact Bool.and_eq_true_iff.mpr ⟨ihFirst hfirst _, ihSecond hsecond _⟩
  | opt body ih | absent body ih => exact ih hdescends _
  | many body ih =>
    simp only [Pattern.descends, Bool.and_eq_true] at hdescends ⊢
    exact ⟨⟨hdescends.1.1, ih hdescends.2 _⟩, ih hdescends.2 _⟩

/-- At most `size` characters are left, and less than that if something has been taken. -/
def Cursor.Within (cursor : Cursor) (size : Nat) (fresh : Bool) : Prop :=
  cursor.rest.length < size ∨ fresh ∧ cursor.rest.length = size

namespace Cursor.Within

variable {cursor later : Cursor} {size : Nat} {fresh : Bool}

/-- Within a size, that many characters are left at most. -/
theorem le (hwithin : cursor.Within size fresh) : cursor.rest.length ≤ size := by
  rcases hwithin with h | ⟨-, h⟩ <;> omega

/-- Further on in the text no more characters are left. -/
theorem leads (hwithin : cursor.Within size fresh) (hleads : cursor.LeadsTo later) :
    later.Within size fresh := by
  have hle := hleads.length_le
  rcases Nat.lt_or_eq_of_le (Nat.le_trans hle hwithin.le) with h | h
  · exact .inl h
  · rcases hwithin with hlt | ⟨hfresh, -⟩
    · omega
    · exact .inr ⟨hfresh, h⟩

/-- If something was taken since, less than the size is left. -/
theorem advance (hwithin : cursor.Within size fresh) (hleads : cursor.LeadsTo later)
    (hfurther : cursor.position.offset < later.position.offset) : later.Within size false :=
  .inl (Nat.lt_of_lt_of_le (hleads.length_lt hfurther) hwithin.le)

/-- After a pattern something has been taken if it takes anything. -/
theorem after {mode : Mode} {pattern : Pattern} {nodes : List Node}
    (hwithin : cursor.Within size fresh) (hfound : Matches mode pattern cursor nodes later) :
    later.Within size (fresh && !pattern.advances) := by
  have htakes := hfound.takes
  cases hadvances : pattern.advances with
  | true =>
    have hlater := hwithin.advance htakes.row.leads (htakes.advances hadvances)
    simpa using hlater
  | false => simpa using hwithin.leads htakes.row.leads

end Cursor.Within

namespace Pattern

variable {call : RuleReader} {limit : Nat} {pattern : Pattern} {fresh : Bool} {cursor : Cursor}
  {attempts : Attempts} {nodes : List Node}

/-- A repetition comes to an end if every round does and leaves less than there was. -/
theorem readMany_ne_exhausted {step : Cursor → Attempts → Reply} {rounds : Nat} (size : Nat)
    (hends : ∀ cursor attempts, cursor.rest.length < size → step cursor attempts ≠ .exhausted)
    (hshrinks : ∀ cursor attempts next nodes after,
      step cursor attempts = .matched next nodes after →
        next.rest.length < cursor.rest.length)
    (hwithin : cursor.rest.length < size) (hroom : cursor.rest.length < rounds) :
    readMany step rounds cursor attempts nodes ≠ .exhausted := by
  induction rounds generalizing cursor attempts nodes with
  | zero => contradiction
  | succ rounds ih =>
    unfold readMany
    cases h : step cursor attempts with
    | matched next more attempts =>
      have hshrinks' := hshrinks _ _ _ _ _ h
      exact ih (by omega) (by omega)
    | failed attempts => simp
    | exhausted => exact absurd h (hends cursor attempts hwithin)

/-- Reading a pattern comes to an end if reading the rules that it opens does. -/
theorem read_ne_exhausted (hcall : call.Matches) (size height : Nat) (hroom : size ≤ limit)
    (hcalls : ∀ name mode (cursor : Cursor) attempts,
      cursor.Within size (name.height < height) → call name mode cursor attempts ≠ .exhausted)
    (hdescends : pattern.descends height fresh) (hwithin : cursor.Within size fresh)
    (mode : Mode) (attempts : Attempts) :
    pattern.read call limit mode cursor attempts ≠ .exhausted := by
  induction pattern generalizing mode fresh cursor attempts with
  | start | finish | word | range | anything =>
    unfold read
    split <;> simp
  | rule name =>
    refine hcalls name mode cursor attempts ?_
    rcases hwithin with hlt | ⟨hfresh, heq⟩
    · exact .inl hlt
    · exact .inr ⟨by simpa [Pattern.descends, hfresh] using hdescends, heq⟩
  | seq first second ihFirst ihSecond =>
    obtain ⟨hdescendsFirst, hdescendsSecond⟩ := Bool.and_eq_true_iff.mp hdescends
    have hfirst := ihFirst hdescendsFirst hwithin mode attempts
    have hmatch := first.matches_read hcall limit mode cursor attempts
    simp only [read]
    cases h : first.read call limit mode cursor attempts with
    | matched next nodes attempts =>
      rw [h] at hmatch
      have hlater := (hwithin.after hmatch).leads (between_leads mode next)
      have hsecond := ihSecond hdescendsSecond hlater mode attempts
      dsimp only
      cases h : second.read call limit mode (between mode next) attempts with
      | matched | failed => simp
      | exhausted => exact absurd h hsecond
    | failed attempts => simp
    | exhausted => exact absurd h hfirst
  | alt first second ihFirst ihSecond =>
    obtain ⟨hdescendsFirst, hdescendsSecond⟩ := Bool.and_eq_true_iff.mp hdescends
    have hfirst := ihFirst hdescendsFirst hwithin mode attempts
    simp only [read]
    cases h : first.read call limit mode cursor attempts with
    | matched next nodes attempts => simp
    | failed attempts => exact ihSecond hdescendsSecond hwithin mode attempts
    | exhausted => exact absurd h hfirst
  | opt body ih =>
    have hbody := ih hdescends hwithin mode attempts
    simp only [read]
    cases h : body.read call limit mode cursor attempts with
    | matched | failed => simp
    | exhausted => exact absurd h hbody
  | many body ih =>
    simp only [Pattern.descends, Bool.and_eq_true] at hdescends
    obtain ⟨⟨hadvances, hfresh⟩, hlater⟩ := hdescends
    have hbody := ih hfresh hwithin mode attempts
    have hmatch := body.matches_read hcall limit mode cursor attempts
    simp only [read]
    cases h : body.read call limit mode cursor attempts with
    | matched next nodes attempts =>
      rw [h] at hmatch
      have hshort := hmatch.length_lt hadvances
      have hle := hwithin.le
      refine readMany_ne_exhausted size ?_ ?_ (by omega) (by omega)
      · intro cursor attempts hlt
        exact ih hlater (Cursor.Within.leads (.inl hlt) (between_leads mode cursor)) mode attempts
      · intro cursor attempts next nodes after hround
        have hmatch := body.matches_read hcall limit mode (between mode cursor) attempts
        rw [hround] at hmatch
        have hshort := hmatch.length_lt hadvances
        exact Nat.lt_of_lt_of_le hshort (between_leads mode cursor).length_le
    | failed attempts => simp
    | exhausted => exact absurd h hbody
  | absent body ih =>
    have hbody := ih hdescends hwithin .token attempts
    simp only [read]
    cases h : body.read call limit .token cursor attempts with
    | matched | failed => simp
    | exhausted => exact absurd h hbody

end Pattern

namespace Rule

/-- A depth of ten for every character and of the rule's height suffices. -/
theorem read_ne_exhausted {depth : Nat} {rule : Rule} {cursor : Cursor}
    (henough : 10 * cursor.rest.length + rule.height < depth) (mode : Mode) (attempts : Attempts) :
    read depth rule mode cursor attempts ≠ .exhausted := by
  induction depth generalizing rule cursor mode attempts with
  | zero => contradiction
  | succ depth ih =>
    have hcalls : ∀ name mode (later : Cursor) attempts,
        later.Within cursor.rest.length (name.height < rule.height) →
          read depth name mode later attempts ≠ .exhausted := by
      intro name mode later attempts hwithin
      have hname := name.height_lt
      refine ih ?_ mode attempts
      rcases hwithin with hlt | ⟨hlower, heq⟩
      · omega
      · have := of_decide_eq_true hlower
        omega
    have hbody (inner : Mode) :
        rule.definition.body.read (read depth) depth inner cursor attempts ≠ .exhausted :=
      Pattern.read_ne_exhausted (matches_read depth) cursor.rest.length rule.height (by omega)
        hcalls rule.descends_body (.inr ⟨rfl, rfl⟩) inner attempts
    cases mode with
    | token => exact hbody .token
    | spaced | tight =>
      have hinside := hbody rule.definition.mode
      simp only [Mode.inside, read]
      cases h : rule.definition.body.read (read depth) depth rule.definition.mode cursor
        attempts with
      | matched | failed => simp
      | exhausted => exact absurd h hinside

variable {rule : Rule} {mode : Mode} {cursor : Cursor}

/-- A reading that goes deep enough comes to the verdict. -/
theorem verdict?_read {depth : Nat} {verdict : Verdict}
    (henough : 10 * cursor.rest.length + rule.height < depth)
    (hreads : Reads mode (.rule rule) cursor verdict) (attempts : Attempts) :
    (read depth rule mode cursor attempts).verdict? = some verdict := by
  have hreads' := reads_read depth rule mode cursor attempts
  cases h : read depth rule mode cursor attempts with
  | matched next nodes attempts' => rw [hreads.unique (hreads' _ (by rw [h]; rfl))]; rfl
  | failed attempts' => rw [hreads.unique (hreads' _ (by rw [h]; rfl))]; rfl
  | exhausted => exact absurd h (read_ne_exhausted henough mode attempts)

/-- The depth for a whole text suffices wherever in the text a reading starts. -/
theorem enough_of_in {rule : Rule} {source : String} {cursor : Cursor}
    (hwithin : cursor.In source) :
    10 * cursor.rest.length + rule.height < depthPerCharacter * (source.length + 2) := by
  have hheight := rule.height_lt
  have hlength : cursor.rest.length ≤ source.length := by
    rw [← source.length_toList]
    exact hwithin.length_le
  simp only [depthPerCharacter]
  omega

end Rule

namespace Pattern

variable {pattern : Pattern} {mode : Mode} {cursor next : Cursor} {nodes : List Node}
  (hrepeats : pattern.descends 10 true)
include hrepeats

/-- A pattern that repeats only what takes something is decided by a reading that is deep
enough. -/
theorem read_deep_ne_exhausted (mode : Mode) (cursor : Cursor) :
    pattern.read (Rule.read (10 * cursor.rest.length + 11)) (10 * cursor.rest.length + 11) mode
      cursor .none ≠ .exhausted := by
  refine read_ne_exhausted (Rule.matches_read _) cursor.rest.length 10 (by omega) ?_ hrepeats
    (.inr ⟨rfl, rfl⟩) mode .none
  intro name mode later attempts hwithin
  have hname := name.height_lt
  have hlength := hwithin.le
  exact Rule.read_ne_exhausted (by omega) mode attempts

/-- Reading such a pattern anywhere comes to a verdict. -/
theorem exists_reads (mode : Mode) (cursor : Cursor) :
    ∃ verdict, Reads mode pattern cursor verdict := by
  have hends := read_deep_ne_exhausted hrepeats mode cursor
  have hreads := reads_read (Rule.reads_read (10 * cursor.rest.length + 11))
    (10 * cursor.rest.length + 11) mode pattern cursor .none
  cases h : pattern.read (Rule.read (10 * cursor.rest.length + 11))
      (10 * cursor.rest.length + 11) mode cursor .none with
  | matched next nodes attempts => exact ⟨_, hreads _ (by rw [h]; rfl)⟩
  | failed attempts => exact ⟨_, hreads _ (by rw [h]; rfl)⟩
  | exhausted => exact absurd h hends

/-- Such a pattern is refused where it cannot match. -/
theorem refused_of_no_match
    (hnoMatch : ∀ nodes next, ¬Reads mode pattern cursor (some (nodes, next))) :
    Reads mode pattern cursor none := by
  obtain ⟨verdict, hreads⟩ := exists_reads hrepeats mode cursor
  cases verdict with
  | none => exact hreads
  | some found => exact (hnoMatch found.1 found.2 hreads).elim

/-- Such a pattern matches if it is read as a match. -/
theorem matches_of_reads (hreads : Reads mode pattern cursor (some (nodes, next))) :
    Matches mode pattern cursor nodes next := by
  have hends := read_deep_ne_exhausted hrepeats mode cursor
  have hmatch := matches_read (Rule.matches_read (10 * cursor.rest.length + 11))
    (10 * cursor.rest.length + 11) mode pattern cursor .none
  have hreads' := reads_read (Rule.reads_read (10 * cursor.rest.length + 11))
    (10 * cursor.rest.length + 11) mode pattern cursor .none
  cases h : pattern.read (Rule.read (10 * cursor.rest.length + 11))
      (10 * cursor.rest.length + 11) mode cursor .none with
  | matched last more attempts =>
    rw [h] at hmatch hreads'
    cases hreads.unique (hreads' _ rfl)
    exact hmatch
  | failed attempts =>
    rw [h] at hreads'
    cases hreads.unique (hreads' _ rfl)
  | exhausted => exact absurd h hends

/-- At the end of a text no pattern matches that takes something. -/
theorem refused_at_end (hadvances : pattern.advances) (hends : cursor.rest = []) :
    Reads mode pattern cursor none :=
  refused_of_no_match hrepeats fun _ _ hreads =>
    (matches_of_reads hrepeats hreads).rest_ne_nil hadvances hends

end Pattern

namespace Rule

variable {rule : Rule} {mode : Mode} {cursor next : Cursor} {nodes : List Node}

/-- A rule repeats only what takes something, as its height is a bound. -/
theorem descends (rule : Rule) : (Pattern.rule rule).descends 10 true :=
  decide_eq_true rule.height_lt

/-- Reading a rule anywhere comes to a verdict. -/
theorem exists_reads (rule : Rule) (mode : Mode) (cursor : Cursor) :
    ∃ verdict, Reads mode (.rule rule) cursor verdict :=
  Pattern.exists_reads rule.descends mode cursor

/-- A rule that cannot match is refused. -/
theorem refused_of_no_match
    (hnoMatch : ∀ nodes next, ¬Reads mode (.rule rule) cursor (some (nodes, next))) :
    Reads mode (.rule rule) cursor none :=
  Pattern.refused_of_no_match rule.descends hnoMatch

/-- A rule that is read as a match matches. -/
theorem matches_of_reads (hreads : Reads mode (.rule rule) cursor (some (nodes, next))) :
    Matches mode (.rule rule) cursor nodes next :=
  Pattern.matches_of_reads rule.descends hreads

/-- At the end of a text a rule is refused that takes something. -/
theorem refused_at_end (hadvances : rule.advances) (hends : cursor.rest = []) :
    Reads mode (.rule rule) cursor none :=
  Pattern.refused_at_end rule.descends hadvances hends

end Rule

end Kestrel
