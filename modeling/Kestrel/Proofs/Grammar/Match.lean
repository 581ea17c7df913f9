import Kestrel.Grammar.Reading

/-!
# What a match is made of

A match of a pattern is made of matches of its parts, down to the words and characters that are
taken. How deep the reader may go, how often it may repeat and what it tried before are no part of
it, so that what is said of every match is proved once, by induction on how it is made.
-/

namespace Kestrel

/-- A pattern is refused at a cursor, if it is read as a token. -/
def Pattern.Refused (pattern : Pattern) (cursor : Cursor) : Prop :=
  ∃ call limit attempts after, pattern.read call limit .token cursor attempts = .failed after

/-- A pattern matches from one cursor to another one and leaves nodes. -/
inductive Matches : Mode → Pattern → Cursor → List Node → Cursor → Prop
  | start {mode : Mode} {cursor : Cursor} (hoffset : cursor.position.offset = 0) :
      Matches mode .start cursor [] cursor
  | finish {mode : Mode} {cursor : Cursor} (hrest : cursor.rest = []) :
      Matches mode .finish cursor [] cursor
  | word {mode : Mode} {letters : List Char} {cursor next : Cursor}
      (hfound : cursor.word? letters = some next) : Matches mode (.word letters) cursor [] next
  | range {mode : Mode} {low high : Char} {cursor next : Cursor}
      (htaken : cursor.take? (fun c => low ≤ c && c ≤ high) = some next) :
      Matches mode (.range low high) cursor [] next
  | anything {mode : Mode} {cursor next : Cursor}
      (htaken : cursor.take? (fun _ => true) = some next) :
      Matches mode .anything cursor [] next
  /-- Inside a token a rule leaves no node of its own. -/
  | token {name : Rule} {cursor next : Cursor} {nodes : List Node}
      (hinside : Matches .token name.definition.body cursor nodes next) :
      Matches .token (.rule name) cursor nodes next
  | node {mode : Mode} {name : Rule} {cursor next : Cursor} {children : List Node}
      (houtside : mode ≠ .token)
      (hinside : Matches name.definition.mode name.definition.body cursor children next) :
      Matches mode (.rule name) cursor
        [⟨name, cursor.position, next.position,
          match name.definition.mode with
          | .token => cursor.textTo next
          | .spaced | .tight => "",
          children⟩] next
  | seq {mode : Mode} {first second : Pattern} {cursor next last : Cursor} {nodes more : List Node}
      (hfront : Matches mode first cursor nodes next)
      (hback : Matches mode second (Pattern.between mode next) more last) :
      Matches mode (.seq first second) cursor (nodes ++ more) last
  | altFirst {mode : Mode} {first second : Pattern} {cursor next : Cursor} {nodes : List Node}
      (hinside : Matches mode first cursor nodes next) :
      Matches mode (.alt first second) cursor nodes next
  | altSecond {mode : Mode} {first second : Pattern} {cursor next : Cursor} {nodes : List Node}
      (hinside : Matches mode second cursor nodes next) :
      Matches mode (.alt first second) cursor nodes next
  | optNone {mode : Mode} {body : Pattern} {cursor : Cursor} :
      Matches mode (.opt body) cursor [] cursor
  | optSome {mode : Mode} {body : Pattern} {cursor next : Cursor} {nodes : List Node}
      (hinside : Matches mode body cursor nodes next) : Matches mode (.opt body) cursor nodes next
  | manyNone {mode : Mode} {body : Pattern} {cursor : Cursor} :
      Matches mode (.many body) cursor [] cursor
  | manyFirst {mode : Mode} {body : Pattern} {cursor next : Cursor} {nodes : List Node}
      (hinside : Matches mode body cursor nodes next) : Matches mode (.many body) cursor nodes next
  | manyNext {mode : Mode} {body : Pattern} {cursor next last : Cursor} {nodes more : List Node}
      (hsofar : Matches mode (.many body) cursor nodes next)
      (hround : Matches mode body (Pattern.between mode next) more last) :
      Matches mode (.many body) cursor (nodes ++ more) last
  | absent {mode : Mode} {body : Pattern} {cursor : Cursor} (hrefused : body.Refused cursor) :
      Matches mode (.absent body) cursor [] cursor

namespace Matches

variable {mode : Mode} {first second body : Pattern} {letters : List Char} {cursor last : Cursor}
  {nodes : List Node}

/-- A sequence matches with one part after the other, and a gap in between. -/
theorem seq_inv (hfound : Matches mode (.seq first second) cursor nodes last) :
    ∃ front next back, Matches mode first cursor front next ∧
      Matches mode second (Pattern.between mode next) back last := by
  cases hfound with
  | seq hfront hback => exact ⟨_, _, _, hfront, hback⟩

/-- A word matches where it is. -/
theorem word_inv (hfound : Matches mode (.word letters) cursor nodes last) :
    cursor.word? letters = some last := by
  cases hfound with
  | word hfound => exact hfound

/-- Some character matches where there is one. -/
theorem anything_inv (hfound : Matches mode .anything cursor nodes last) :
    cursor.take? (fun _ => true) = some last := by
  cases hfound with
  | anything htaken => exact htaken

/-- The end matches where nothing is left. -/
theorem finish_inv (hfound : Matches mode .finish cursor nodes last) : last.rest = [] := by
  cases hfound with
  | finish hrest => exact hrest

/-- What is to be absent was refused, and nothing was taken. -/
theorem absent_inv (hfound : Matches mode (.absent body) cursor nodes last) :
    last = cursor ∧ body.Refused cursor := by
  cases hfound with
  | absent hrefused => exact ⟨rfl, hrefused⟩

/-- A rule matches as what it consists of does. -/
theorem rule_inv {name : Rule} (hfound : Matches mode (.rule name) cursor nodes last)
    (houtside : mode ≠ .token) :
    ∃ children, Matches name.definition.mode name.definition.body cursor children last := by
  cases hfound with
  | token => contradiction
  | node _ hinside => exact ⟨_, hinside⟩

end Matches

/-- A reply that stands for a match, if it is one. -/
def Reply.Matches (reply : Reply) (mode : Mode) (pattern : Pattern) (cursor : Cursor) : Prop :=
  match reply with
  | .matched next nodes _ => Kestrel.Matches mode pattern cursor nodes next
  | .failed _ | .exhausted => True

/-- A reader of rules whose replies stand for matches. -/
def RuleReader.Matches (call : RuleReader) : Prop :=
  ∀ name mode cursor attempts, (call name mode cursor attempts).Matches mode (.rule name) cursor

namespace Pattern

variable {call : RuleReader} {limit : Nat} {mode : Mode} {pattern : Pattern} {cursor : Cursor}
  {attempts : Attempts} {nodes : List Node}

/-- A repetition goes on from its first rounds; the nodes so far are kept last first. -/
theorem matches_readMany (start : Cursor)
    (hstep : ∀ cursor attempts,
      (pattern.read call limit mode (between mode cursor) attempts).Matches mode pattern
        (between mode cursor)) (rounds : Nat)
    (hsofar : Matches mode (.many pattern) start nodes.reverse cursor) :
    (readMany (fun cursor => pattern.read call limit mode (between mode cursor)) rounds cursor
      attempts nodes).Matches mode (.many pattern) start := by
  induction rounds generalizing cursor attempts nodes with
  | zero => trivial
  | succ rounds ih =>
    have hstep' := hstep cursor attempts
    unfold readMany
    split
    · rename_i last more attempts hreply
      rw [hreply] at hstep'
      exact ih (by simpa using hsofar.manyNext hstep')
    · exact hsofar
    · trivial

/-- If the replies of the rules stand for matches, so do those of every pattern. -/
theorem matches_read (hcall : call.Matches) (limit : Nat) (mode : Mode) (pattern : Pattern)
    (cursor : Cursor) (attempts : Attempts) :
    (pattern.read call limit mode cursor attempts).Matches mode pattern cursor := by
  induction pattern generalizing mode cursor attempts with
  | start =>
    unfold read
    split
    · exact .start ‹_›
    · trivial
  | finish =>
    unfold read
    split
    · exact .finish (List.isEmpty_iff.mp ‹_›)
    · trivial
  | word letters =>
    unfold read
    split
    · exact .word ‹_›
    · trivial
  | range low high =>
    unfold read
    split
    · exact .range ‹_›
    · trivial
  | anything =>
    unfold read
    split
    · exact .anything ‹_›
    · trivial
  | rule name => exact hcall name mode cursor attempts
  | seq first second ihFirst ihSecond =>
    have hfirst := ihFirst mode cursor attempts
    simp only [read]
    cases h : first.read call limit mode cursor attempts with
    | matched next nodes attempts =>
      rw [h] at hfirst
      have hsecond := ihSecond mode (between mode next) attempts
      dsimp only
      cases h : second.read call limit mode (between mode next) attempts with
      | matched last more attempts =>
        rw [h] at hsecond
        exact hfirst.seq hsecond
      | failed | exhausted => trivial
    | failed | exhausted => trivial
  | alt first second ihFirst ihSecond =>
    have hfirst := ihFirst mode cursor attempts
    simp only [read]
    cases h : first.read call limit mode cursor attempts with
    | matched next nodes attempts =>
      rw [h] at hfirst
      exact hfirst.altFirst
    | failed attempts =>
      have hsecond := ihSecond mode cursor attempts
      dsimp only
      cases h : second.read call limit mode cursor attempts with
      | matched next nodes attempts =>
        rw [h] at hsecond
        exact hsecond.altSecond
      | failed | exhausted => trivial
    | exhausted => trivial
  | opt body ih =>
    have hbody := ih mode cursor attempts
    simp only [read]
    cases h : body.read call limit mode cursor attempts with
    | matched next nodes attempts =>
      rw [h] at hbody
      exact hbody.optSome
    | failed attempts => exact .optNone
    | exhausted => trivial
  | many body ih =>
    have hbody := ih mode cursor attempts
    simp only [read]
    cases h : body.read call limit mode cursor attempts with
    | matched next nodes attempts =>
      rw [h] at hbody
      refine matches_readMany cursor (fun next => ih mode (between mode next)) limit ?_
      simpa using hbody.manyFirst
    | failed attempts => exact .manyNone
    | exhausted => trivial
  | absent body =>
    simp only [read]
    cases h : body.read call limit .token cursor attempts with
    | matched | exhausted => trivial
    | failed after => exact .absent ⟨call, limit, attempts, after, h⟩

end Pattern

namespace Rule

/-- However deep it may go, what a reading of rules replies stands for a match. -/
theorem matches_read (depth : Nat) : RuleReader.Matches (read depth) := by
  induction depth with
  | zero => exact fun _ _ _ _ => trivial
  | succ depth ih =>
    intro rule mode cursor attempts
    have hbody := Pattern.matches_read ih depth (mode.inside rule.definition.mode)
      rule.definition.body cursor attempts
    cases mode with
    | token =>
      simp only [Mode.inside, read] at hbody ⊢
      cases h : rule.definition.body.read (read depth) depth .token cursor attempts with
      | matched next nodes attempts =>
        rw [h] at hbody
        exact hbody.token
      | failed | exhausted => trivial
    | spaced | tight =>
      simp only [Mode.inside, read] at hbody ⊢
      cases h : rule.definition.body.read (read depth) depth rule.definition.mode cursor
        attempts with
      | matched next children attempts =>
        rw [h] at hbody
        exact .node (by decide) hbody
      | failed | exhausted => trivial

/-- What reading a whole text by a rule replies stands for a match. -/
theorem matches_readText (rule : Rule) (source : String) :
    (rule.readText source).Matches .spaced (.rule rule) (.ofText source) :=
  matches_read _ _ _ _ _

end Rule

end Kestrel
