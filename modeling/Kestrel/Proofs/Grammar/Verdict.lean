import Kestrel.Proofs.Grammar.Match

/-!
# Matches and refusals

What reading a pattern comes to is decided by the text alone: it matches with certain nodes, or it
is refused. How the decision is made is followed here with its refusals, since a choice comes to its
second pattern, and a repetition to its end, only through one. No pattern is decided in two ways.
-/

namespace Kestrel

/-- What reading comes to: the nodes that are left with the cursor after them, or a refusal. -/
abbrev Verdict := Option (List Node × Cursor)

/-- What a reply decides; nothing if the depth did not suffice. -/
def Reply.verdict? : Reply → Option Verdict
  | .matched next nodes _ => some (some (nodes, next))
  | .failed _ => some none
  | .exhausted => none

/-- The node that a rule leaves. -/
def Rule.nodeOf (name : Rule) (cursor next : Cursor) (children : List Node) : Node :=
  ⟨name, cursor.position, next.position,
    match name.definition.mode with
    | .token => cursor.textTo next
    | .spaced | .tight => "",
    children⟩

/-- Reading a pattern at a cursor comes to a verdict. -/
inductive Reads : Mode → Pattern → Cursor → Verdict → Prop
  | start {mode : Mode} {cursor : Cursor} {verdict : Verdict}
      (hdecided : verdict = if cursor.position.offset = 0 then some ([], cursor) else none) :
      Reads mode .start cursor verdict
  | finish {mode : Mode} {cursor : Cursor} {verdict : Verdict}
      (hdecided : verdict = if cursor.rest.isEmpty then some ([], cursor) else none) :
      Reads mode .finish cursor verdict
  | word {mode : Mode} {letters : List Char} {cursor : Cursor} {verdict : Verdict}
      (hdecided : verdict = (cursor.word? letters).map fun next => ([], next)) :
      Reads mode (.word letters) cursor verdict
  | range {mode : Mode} {low high : Char} {cursor : Cursor} {verdict : Verdict}
      (hdecided :
        verdict = (cursor.take? fun c => low ≤ c && c ≤ high).map fun next => ([], next)) :
      Reads mode (.range low high) cursor verdict
  | anything {mode : Mode} {cursor : Cursor} {verdict : Verdict}
      (hdecided : verdict = (cursor.take? fun _ => true).map fun next => ([], next)) :
      Reads mode .anything cursor verdict
  /-- Inside a token a rule leaves no node of its own. -/
  | token {name : Rule} {cursor : Cursor} {verdict : Verdict}
      (hinside : Reads .token name.definition.body cursor verdict) :
      Reads .token (.rule name) cursor verdict
  | node {mode : Mode} {name : Rule} {cursor : Cursor} {inner verdict : Verdict}
      (houtside : mode ≠ .token)
      (hinside : Reads name.definition.mode name.definition.body cursor inner)
      (hdecided : verdict =
        inner.map fun found => ([name.nodeOf cursor found.2 found.1], found.2)) :
      Reads mode (.rule name) cursor verdict
  | seq {mode : Mode} {first second : Pattern} {cursor next : Cursor} {nodes : List Node}
      {later verdict : Verdict} (hfront : Reads mode first cursor (some (nodes, next)))
      (hback : Reads mode second (Pattern.between mode next) later)
      (hdecided : verdict = later.map fun found => (nodes ++ found.1, found.2)) :
      Reads mode (.seq first second) cursor verdict
  | seqRefused {mode : Mode} {first second : Pattern} {cursor : Cursor}
      (hfront : Reads mode first cursor none) : Reads mode (.seq first second) cursor none
  | altFirst {mode : Mode} {first second : Pattern} {cursor : Cursor} {found : List Node × Cursor}
      (hinside : Reads mode first cursor (some found)) :
      Reads mode (.alt first second) cursor (some found)
  | altSecond {mode : Mode} {first second : Pattern} {cursor : Cursor} {verdict : Verdict}
      (hrefused : Reads mode first cursor none) (hinside : Reads mode second cursor verdict) :
      Reads mode (.alt first second) cursor verdict
  | optSome {mode : Mode} {body : Pattern} {cursor : Cursor} {found : List Node × Cursor}
      (hinside : Reads mode body cursor (some found)) : Reads mode (.opt body) cursor (some found)
  | optNone {mode : Mode} {body : Pattern} {cursor : Cursor}
      (hrefused : Reads mode body cursor none) : Reads mode (.opt body) cursor (some ([], cursor))
  | manyNone {mode : Mode} {body : Pattern} {cursor : Cursor}
      (hrefused : Reads mode body cursor none) : Reads mode (.many body) cursor (some ([], cursor))
  | manyStop {mode : Mode} {body : Pattern} {cursor next : Cursor} {nodes : List Node}
      (hround : Reads mode body cursor (some (nodes, next)))
      (hrefused : Reads mode body (Pattern.between mode next) none) :
      Reads mode (.many body) cursor (some (nodes, next))
  /-- After a round the others are read as a repetition that has one. -/
  | manyNext {mode : Mode} {body : Pattern} {cursor next last : Cursor} {nodes more : List Node}
      {found : List Node × Cursor} (hround : Reads mode body cursor (some (nodes, next)))
      (hagain : Reads mode body (Pattern.between mode next) (some found))
      (hothers : Reads mode (.many body) (Pattern.between mode next) (some (more, last))) :
      Reads mode (.many body) cursor (some (nodes ++ more, last))
  | absent {mode : Mode} {body : Pattern} {cursor : Cursor} {inner verdict : Verdict}
      (hinside : Reads .token body cursor inner)
      (hdecided : verdict = if inner.isSome then none else some ([], cursor)) :
      Reads mode (.absent body) cursor verdict

namespace Reads

variable {mode : Mode} {pattern : Pattern} {cursor : Cursor} {verdict verdict' : Verdict}

/-- A pattern is not decided in two ways. -/
theorem unique (hreads : Reads mode pattern cursor verdict)
    (hreads' : Reads mode pattern cursor verdict') : verdict = verdict' := by
  induction hreads generalizing verdict' with
  | start hdecided | finish hdecided | word hdecided | range hdecided | anything hdecided =>
    cases hreads' with
    | _ hdecided' => rw [hdecided, hdecided']
  | token hinside ih =>
    cases hreads' with
    | token hinside' => exact ih hinside'
    | node houtside => contradiction
  | node houtside hinside hdecided ih =>
    cases hreads' with
    | token => contradiction
    | node _ hinside' hdecided' => rw [hdecided, hdecided', ih hinside']
  | seq hfront hback hdecided ihFront ihBack =>
    cases hreads' with
    | seq hfront' hback' hdecided' =>
      cases ihFront hfront'
      rw [hdecided, hdecided', ihBack hback']
    | seqRefused hfront' => cases ihFront hfront'
  | seqRefused hfront ih =>
    cases hreads' with
    | seq hfront' => cases ih hfront'
    | seqRefused => rfl
  | altFirst hinside ih =>
    cases hreads' with
    | altFirst hinside' => exact ih hinside'
    | altSecond hrefused' => cases ih hrefused'
  | altSecond hrefused hinside ihRefused ihInside =>
    cases hreads' with
    | altFirst hinside' => cases ihRefused hinside'
    | altSecond _ hinside' => exact ihInside hinside'
  | optSome hinside ih =>
    cases hreads' with
    | optSome hinside' => exact ih hinside'
    | optNone hrefused' => cases ih hrefused'
  | optNone hrefused ih =>
    cases hreads' with
    | optSome hinside' => cases ih hinside'
    | optNone => rfl
  | manyNone hrefused ih =>
    cases hreads' with
    | manyNone => rfl
    | manyStop hround' | manyNext hround' => cases ih hround'
  | manyStop hround hrefused ihRound ihRefused =>
    cases hreads' with
    | manyNone hrefused' => cases ihRound hrefused'
    | manyStop hround' => exact ihRound hround'
    | manyNext hround' hagain' =>
      cases ihRound hround'
      cases ihRefused hagain'
  | manyNext hround hagain hothers ihRound ihAgain ihOthers =>
    cases hreads' with
    | manyNone hrefused' => cases ihRound hrefused'
    | manyStop hround' hrefused' =>
      cases ihRound hround'
      cases ihAgain hrefused'
    | manyNext hround' _ hothers' =>
      cases ihRound hround'
      cases ihOthers hothers'
      rfl
  | absent hinside hdecided ih =>
    cases hreads' with
    | absent hinside' hdecided' => rw [hdecided, hdecided', ih hinside']

section Inversion

variable {first second body : Pattern} {letters : List Char} {last : Cursor} {nodes : List Node}

/-- A sequence is read as one part after the other, and a gap in between. -/
theorem seq_inv (hreads : Reads mode (.seq first second) cursor (some (nodes, last))) :
    ∃ front next back, Reads mode first cursor (some (front, next)) ∧
      Reads mode second (Pattern.between mode next) (some (back, last)) ∧
      nodes = front ++ back := by
  cases hreads with
  | @seq _ _ _ _ next front later _ hfront hback hdecided =>
    obtain ⟨⟨back, last⟩, rfl, hnodes⟩ := Option.map_eq_some_iff.mp hdecided.symm
    cases hnodes
    exact ⟨front, next, back, hfront, hback, rfl⟩

/-- Of two alternatives the first is read, or it is refused and the second one is read. -/
theorem alt_inv (hreads : Reads mode (.alt first second) cursor (some (nodes, last))) :
    Reads mode first cursor (some (nodes, last)) ∨
      Reads mode first cursor none ∧ Reads mode second cursor (some (nodes, last)) := by
  cases hreads with
  | altFirst hinside => exact .inl hinside
  | altSecond hrefused hinside => exact .inr ⟨hrefused, hinside⟩

/-- What may be left out is read, or it is refused and nothing is taken. -/
theorem opt_inv (hreads : Reads mode (.opt body) cursor (some (nodes, last))) :
    Reads mode body cursor (some (nodes, last)) ∨
      Reads mode body cursor none ∧ nodes = [] ∧ last = cursor := by
  cases hreads with
  | optSome hinside => exact .inl hinside
  | optNone hrefused => exact .inr ⟨hrefused, rfl, rfl⟩

/-- A repetition starts with a round unless it has none. -/
theorem many_inv (hreads : Reads mode (.many body) cursor (some (nodes, last))) :
    Reads mode body cursor none ∧ nodes = [] ∧ last = cursor ∨
      ∃ found, Reads mode body cursor (some found) := by
  cases hreads with
  | manyNone hrefused => exact .inl ⟨hrefused, rfl, rfl⟩
  | manyStop hround => exact .inr ⟨_, hround⟩
  | manyNext hround => exact .inr ⟨_, hround⟩

/-- A word is read where it is, and leaves no node. -/
theorem word_inv (hreads : Reads mode (.word letters) cursor (some (nodes, last))) :
    cursor.word? letters = some last ∧ nodes = [] := by
  cases hreads with
  | word hdecided =>
    obtain ⟨next, hnext, hfound⟩ := Option.map_eq_some_iff.mp hdecided.symm
    cases hfound
    exact ⟨hnext, rfl⟩

/-- What is to be absent is refused, and nothing is taken. -/
theorem absent_inv (hreads : Reads mode (.absent body) cursor (some (nodes, last))) :
    Reads .token body cursor none ∧ nodes = [] ∧ last = cursor := by
  cases hreads with
  | @absent _ _ _ inner _ hinside hdecided =>
    cases inner with
    | none =>
      cases hdecided
      exact ⟨hinside, rfl, rfl⟩
    | some found => contradiction

/-- A rule is read as what it consists of, and leaves its node. -/
theorem rule_inv {name : Rule} (hreads : Reads mode (.rule name) cursor (some (nodes, last)))
    (houtside : mode ≠ .token) :
    ∃ children, Reads name.definition.mode name.definition.body cursor (some (children, last)) ∧
      nodes = [name.nodeOf cursor last children] := by
  cases hreads with
  | token => contradiction
  | node _ hinside hdecided =>
    obtain ⟨⟨children, last⟩, rfl, hfound⟩ := Option.map_eq_some_iff.mp hdecided.symm
    cases hfound
    exact ⟨children, hinside, rfl⟩

end Inversion

end Reads

/-- Whatever a reply decides is what reading comes to. -/
def Reply.Reads (reply : Reply) (mode : Mode) (pattern : Pattern) (cursor : Cursor) : Prop :=
  ∀ verdict, reply.verdict? = some verdict → Kestrel.Reads mode pattern cursor verdict

/-- A reader of rules that decides what reading comes to. -/
def RuleReader.Reads (call : RuleReader) : Prop :=
  ∀ name mode cursor attempts, (call name mode cursor attempts).Reads mode (.rule name) cursor

@[simp] theorem Reply.reads_matched {mode : Mode} {pattern : Pattern} {cursor next : Cursor}
    {nodes : List Node} {attempts : Attempts} :
    (Reply.matched next nodes attempts).Reads mode pattern cursor ↔
      Kestrel.Reads mode pattern cursor (some (nodes, next)) := by
  simp [Reply.Reads, Reply.verdict?]

@[simp] theorem Reply.reads_failed {mode : Mode} {pattern : Pattern} {cursor : Cursor}
    {attempts : Attempts} :
    (Reply.failed attempts).Reads mode pattern cursor ↔ Kestrel.Reads mode pattern cursor none := by
  simp [Reply.Reads, Reply.verdict?]

@[simp] theorem Reply.reads_exhausted {mode : Mode} {pattern : Pattern} {cursor : Cursor} :
    Reply.exhausted.Reads mode pattern cursor := by
  simp [Reply.Reads, Reply.verdict?]

namespace Pattern

variable {call : RuleReader} {limit : Nat} {mode : Mode} {pattern : Pattern} {cursor last : Cursor}
  {attempts after : Attempts} {nodes all : List Node}

/-- After a first round a repetition either stops at once, or goes on as one that has a round; the
nodes so far are kept last first. -/
theorem reads_readMany
    (hstep : ∀ cursor attempts,
      (pattern.read call limit mode (between mode cursor) attempts).Reads mode pattern
        (between mode cursor)) (rounds : Nat)
    (hends : readMany (fun cursor => pattern.read call limit mode (between mode cursor)) rounds
      cursor attempts nodes = .matched last all after) :
    Kestrel.Reads mode pattern (between mode cursor) none ∧ last = cursor ∧ all = nodes.reverse ∨
      ∃ found more, Kestrel.Reads mode pattern (between mode cursor) (some found) ∧
        Kestrel.Reads mode (.many pattern) (between mode cursor) (some (more, last)) ∧
        all = nodes.reverse ++ more := by
  induction rounds generalizing cursor attempts nodes with
  | zero => cases hends
  | succ rounds ih =>
    have hstep' := hstep cursor attempts
    unfold readMany at hends
    split at hends
    · rename_i next found attempts' hreply
      rw [hreply, Reply.reads_matched] at hstep'
      right
      rcases ih hends with ⟨hrefused, rfl, rfl⟩ | ⟨again, more, hagain, hothers, rfl⟩
      · exact ⟨_, found, hstep', hstep'.manyStop hrefused, by simp⟩
      · exact ⟨_, found ++ more, hstep', hstep'.manyNext hagain hothers, by simp⟩
    · rename_i attempts' hreply
      rw [hreply, Reply.reads_failed] at hstep'
      cases hends
      exact .inl ⟨hstep', rfl, rfl⟩
    · cases hends

/-- A repetition is never refused. -/
theorem readMany_ne_failed {step : Cursor → Attempts → Reply} (rounds : Nat) :
    readMany step rounds cursor attempts nodes ≠ .failed after := by
  induction rounds generalizing cursor attempts nodes with
  | zero => simp [readMany]
  | succ rounds ih =>
    unfold readMany
    split
    · exact ih
    · simp
    · simp

/-- If the replies of the rules decide what reading them comes to, so do those of every pattern. -/
theorem reads_read (hcall : call.Reads) (limit : Nat) (mode : Mode) (pattern : Pattern)
    (cursor : Cursor) (attempts : Attempts) :
    (pattern.read call limit mode cursor attempts).Reads mode pattern cursor := by
  induction pattern generalizing mode cursor attempts with
  | start =>
    unfold read
    split
    · exact Reply.reads_matched.mpr (.start (by rw [if_pos ‹_›]))
    · exact Reply.reads_failed.mpr (.start (by rw [if_neg ‹_›]))
  | finish =>
    unfold read
    split
    · exact Reply.reads_matched.mpr (.finish (by rw [if_pos ‹_›]))
    · exact Reply.reads_failed.mpr (.finish (by rw [if_neg ‹_›]))
  | word letters =>
    simp only [read]
    cases h : cursor.word? letters with
    | some next => exact Reply.reads_matched.mpr (.word (by rw [h]; rfl))
    | none => exact Reply.reads_failed.mpr (.word (by rw [h]; rfl))
  | range low high =>
    simp only [read]
    cases h : cursor.take? fun c => low ≤ c && c ≤ high with
    | some next => exact Reply.reads_matched.mpr (.range (by rw [h]; rfl))
    | none => exact Reply.reads_failed.mpr (.range (by rw [h]; rfl))
  | anything =>
    simp only [read]
    cases h : cursor.take? fun _ => true with
    | some next => exact Reply.reads_matched.mpr (.anything (by rw [h]; rfl))
    | none => exact Reply.reads_failed.mpr (.anything (by rw [h]; rfl))
  | rule name => exact hcall name mode cursor attempts
  | seq first second ihFirst ihSecond =>
    have hfirst := ihFirst mode cursor attempts
    simp only [read]
    cases h : first.read call limit mode cursor attempts with
    | matched next nodes attempts =>
      rw [h, Reply.reads_matched] at hfirst
      have hsecond := ihSecond mode (between mode next) attempts
      dsimp only
      cases h : second.read call limit mode (between mode next) attempts with
      | matched last more attempts =>
        rw [h, Reply.reads_matched] at hsecond
        exact Reply.reads_matched.mpr (hfirst.seq hsecond rfl)
      | failed attempts =>
        rw [h, Reply.reads_failed] at hsecond
        exact Reply.reads_failed.mpr (hfirst.seq hsecond rfl)
      | exhausted => exact Reply.reads_exhausted
    | failed attempts =>
      rw [h, Reply.reads_failed] at hfirst
      exact Reply.reads_failed.mpr hfirst.seqRefused
    | exhausted => exact Reply.reads_exhausted
  | alt first second ihFirst ihSecond =>
    have hfirst := ihFirst mode cursor attempts
    simp only [read]
    cases h : first.read call limit mode cursor attempts with
    | matched next nodes attempts =>
      rw [h, Reply.reads_matched] at hfirst
      exact Reply.reads_matched.mpr hfirst.altFirst
    | failed attempts =>
      rw [h, Reply.reads_failed] at hfirst
      have hsecond := ihSecond mode cursor attempts
      exact fun verdict hverdict => hfirst.altSecond (hsecond verdict hverdict)
    | exhausted => exact Reply.reads_exhausted
  | opt body ih =>
    have hbody := ih mode cursor attempts
    simp only [read]
    cases h : body.read call limit mode cursor attempts with
    | matched next nodes attempts =>
      rw [h, Reply.reads_matched] at hbody
      exact Reply.reads_matched.mpr hbody.optSome
    | failed attempts =>
      rw [h, Reply.reads_failed] at hbody
      exact Reply.reads_matched.mpr hbody.optNone
    | exhausted => exact Reply.reads_exhausted
  | many body ih =>
    have hbody := ih mode cursor attempts
    simp only [read]
    cases h : body.read call limit mode cursor attempts with
    | matched next nodes attempts =>
      rw [h, Reply.reads_matched] at hbody
      dsimp only
      cases hrounds : readMany (fun cursor => body.read call limit mode (between mode cursor)) limit
          next attempts nodes.reverse with
      | matched last all attempts =>
        refine Reply.reads_matched.mpr ?_
        rcases reads_readMany (fun cursor => ih mode (between mode cursor)) limit hrounds with
          ⟨hrefused, rfl, rfl⟩ | ⟨found, more, hagain, hothers, rfl⟩
        · simpa using hbody.manyStop hrefused
        · simpa using hbody.manyNext hagain hothers
      | failed attempts => exact absurd hrounds (readMany_ne_failed limit)
      | exhausted => exact Reply.reads_exhausted
    | failed attempts =>
      rw [h, Reply.reads_failed] at hbody
      exact Reply.reads_matched.mpr hbody.manyNone
    | exhausted => exact Reply.reads_exhausted
  | absent body ih =>
    have hbody := ih .token cursor attempts
    simp only [read]
    cases h : body.read call limit .token cursor attempts with
    | matched next nodes attempts =>
      rw [h, Reply.reads_matched] at hbody
      exact Reply.reads_failed.mpr (hbody.absent rfl)
    | failed attempts =>
      rw [h, Reply.reads_failed] at hbody
      exact Reply.reads_matched.mpr (hbody.absent rfl)
    | exhausted => exact Reply.reads_exhausted

end Pattern

namespace Rule

/-- However deep it may go, what a reading of rules decides is what reading comes to. -/
theorem reads_read (depth : Nat) : RuleReader.Reads (read depth) := by
  induction depth with
  | zero => exact fun _ _ _ _ => Reply.reads_exhausted
  | succ depth ih =>
    intro rule mode cursor attempts
    have hbody := Pattern.reads_read ih depth (mode.inside rule.definition.mode)
      rule.definition.body cursor attempts
    cases mode with
    | token =>
      simp only [Mode.inside, read] at hbody ⊢
      exact fun verdict hverdict => (hbody verdict hverdict).token
    | spaced | tight =>
      simp only [Mode.inside, read] at hbody ⊢
      cases h : rule.definition.body.read (read depth) depth rule.definition.mode cursor
        attempts with
      | matched next children attempts =>
        rw [h, Reply.reads_matched] at hbody
        exact Reply.reads_matched.mpr (.node (by decide) hbody rfl)
      | failed attempts =>
        rw [h, Reply.reads_failed] at hbody
        exact Reply.reads_failed.mpr (.node (by decide) hbody rfl)
      | exhausted => exact Reply.reads_exhausted

/-- What a rule matches in a reading it is read as. -/
theorem reads_of_matched {depth : Nat} {rule : Rule} {mode : Mode} {cursor next : Cursor}
    {nodes : List Node} {attempts after : Attempts}
    (hfound : read depth rule mode cursor attempts = .matched next nodes after) :
    Reads mode (.rule rule) cursor (some (nodes, next)) := by
  have hreads := reads_read depth rule mode cursor attempts
  rw [hfound] at hreads
  exact Reply.reads_matched.mp hreads

end Rule

end Kestrel
