import Kestrel.Interactive.Repl
import Kestrel.Proofs.Grammar.Opening
import Kestrel.Proofs.Syntax.Comment

/-!
# Inputs that are not run

An interactive session does not run an input that is blank, or that has a comment as its first
line. Of a blank input and of a comment that is all there is, running would change nothing: no rule
of the grammar takes white space as its first character. After the line of a comment there may be
statements, and they are not run.
-/

namespace Kestrel

/-- A source text that is accepted as a program with statements to run. -/
def HoldsStatement (source : String) : Prop :=
  ∃ sourceFile program, parseProgram source sourceFile = .ok program ∧ program.statements ≠ []

/-- A source text whose program is looked at and has statements. -/
theorem holdsStatement_of_check {source : String} (sourceFile : Option String)
    (hcheck : (parseProgram source sourceFile).toOption.any fun program =>
      !program.statements.isEmpty) : HoldsStatement source := by
  cases hparsed : parseProgram source sourceFile with
  | ok program =>
    rw [hparsed] at hcheck
    refine ⟨sourceFile, program, hparsed, fun hnil => ?_⟩
    simp [Except.toOption, hnil] at hcheck
  | error error =>
    rw [hparsed] at hcheck
    contradiction

/-- Whether a pattern takes no white space as its first character, provided that the rules in it do
not. -/
def Pattern.startsVisibly : Pattern → Bool
  | .word letters => letters.head?.all fun c => !isWhiteSpace c
  | .range low high => '!' ≤ low && high ≤ '~'
  | .anything => false
  | .rule name => name ≠ .stringContent
  | .seq first second => first.startsVisibly && (first.advances || second.startsVisibly)
  | .alt first second => first.startsVisibly && second.startsVisibly
  | .opt body | .many body => body.startsVisibly
  | .start | .finish | .absent _ => true

/-- No rule but that of the contents of a string takes white space as its first character. -/
theorem Rule.startsVisibly_body {rule : Rule} (hcontent : rule ≠ .stringContent) :
    rule.definition.body.startsVisibly := by
  cases rule <;> first | contradiction | decide +kernel

/-- The characters of ASCII that can be seen are no white space. -/
theorem isWhiteSpace_eq_false {c : Char} (hlow : '!' ≤ c) (hhigh : c ≤ '~') :
    isWhiteSpace c = false := by
  have hlow' : 33 ≤ c.toNat := hlow
  have hhigh' : c.toNat ≤ 126 := hhigh
  simp only [isWhiteSpace, inRanges, whiteSpaceRanges, List.any_cons, List.any_nil,
    Bool.or_eq_false_iff, Bool.and_eq_false_iff, decide_eq_false_iff_not, and_true]
  omega

namespace Cursor

/-- No gap comes next, and nothing that can be seen: white space of other kinds or the end of the
text. -/
structure Unseen (cursor : Cursor) : Prop where
  gap : cursor.skipGap = cursor
  white : ∀ c ∈ cursor.rest.head?, isWhiteSpace c

end Cursor

/-- What takes no white space first may take nothing where white space or nothing comes next. -/
theorem Pattern.mayTake_of_startsVisibly {first : Option Char}
    (hwhite : ∀ c ∈ first, isWhiteSpace c) {pattern : Pattern} (hvisible : pattern.startsVisibly) :
    pattern.mayTake (· == .stringContent) first = false := by
  induction pattern with
  | word letters =>
    cases letters with
    | nil => rfl
    | cons c letters =>
      have hc : isWhiteSpace c = false := by simpa [startsVisibly] using hvisible
      refine beq_eq_false_iff_ne.mpr fun hfirst => ?_
      have hwhite' := hwhite c hfirst.symm
      rw [hc] at hwhite'
      contradiction
  | range low high =>
    obtain ⟨hlow, hhigh⟩ := Bool.and_eq_true_iff.mp hvisible
    cases first with
    | none => rfl
    | some c =>
      refine Bool.eq_false_iff.mpr fun htaken => ?_
      obtain ⟨hlow', hhigh'⟩ := Bool.and_eq_true_iff.mp htaken
      have hc := isWhiteSpace_eq_false
        (Char.le_trans (of_decide_eq_true hlow) (of_decide_eq_true hlow'))
        (Char.le_trans (of_decide_eq_true hhigh') (of_decide_eq_true hhigh))
      rw [hwhite c rfl] at hc
      contradiction
  | anything => contradiction
  | rule name => exact beq_eq_false_iff_ne.mpr (of_decide_eq_true hvisible)
  | seq front back ihFront ihBack =>
    obtain ⟨hfront, hback⟩ := Bool.and_eq_true_iff.mp hvisible
    refine Bool.or_eq_false_iff.mpr ⟨ihFront hfront, ?_⟩
    cases hadvances : front.advances with
    | true => rfl
    | false =>
      rw [hadvances] at hback
      exact ihBack hback
  | alt left right ihLeft ihRight =>
    obtain ⟨hleft, hright⟩ := Bool.and_eq_true_iff.mp hvisible
    exact Bool.or_eq_false_iff.mpr ⟨ihLeft hleft, ihRight hright⟩
  | opt body ih | many body ih => exact ih hvisible
  | start | finish | absent => rfl

/-- Where nothing can be seen, nothing is taken. -/
theorem Matches.next_eq {mode : Mode} {pattern : Pattern} {cursor next : Cursor}
    {nodes : List Node} (hfound : Matches mode pattern cursor nodes next)
    (hvisible : pattern.startsVisibly) (hunseen : cursor.Unseen) : next = cursor :=
  hfound.next_eq_of_mayTake
    (fun _ hshut => Pattern.mayTake_of_startsVisibly hunseen.white
      (Rule.startsVisibly_body (ne_of_beq_false hshut)))
    hunseen.gap rfl (Pattern.mayTake_of_startsVisibly hunseen.white hvisible)

/-- Where nothing can be seen, a repetition of what takes something has no rounds. -/
theorem Matches.nodes_eq_nil {mode : Mode} {body : Pattern} {cursor next : Cursor}
    {nodes : List Node} (hfound : Matches mode (.many body) cursor nodes next)
    (hvisible : body.startsVisibly) (hadvances : body.advances) (hunseen : cursor.Unseen) :
    nodes = [] := by
  cases hfound with
  | manyNone => rfl
  | manyFirst hinside =>
    exact absurd (hinside.next_eq hvisible hunseen) (hinside.next_ne hadvances)
  | manyNext hsofar hround =>
    obtain rfl := hsofar.next_eq hvisible hunseen
    rw [Pattern.between_of_settled hunseen.gap] at hround
    exact absurd (hround.next_eq hvisible hunseen) (hround.next_ne hadvances)

/-- A text with nothing to be seen after its first gap holds no statement. -/
theorem not_holdsStatement {source : String}
    (hunseen : (Cursor.ofText source).skipGap.Unseen) : ¬HoldsStatement source := by
  rintro ⟨sourceFile, program, hparsed, hstatements'⟩
  refine hstatements' ?_
  have hfound := Rule.program.matches_readText source
  unfold parseProgram readPart at hparsed
  generalize Rule.program.readText source = reply at hfound hparsed
  cases reply with
  | failed | exhausted => contradiction
  | matched next nodes attempts =>
    cases hfound with
    | node houtside hinside =>
      cases hinside with
      | seq hstart hothers =>
        cases hstart
        cases hothers with
        | seq hstatements hfinish =>
          obtain rfl := hstatements.nodes_eq_nil rfl rfl hunseen
          cases hfinish with
          | node _ hinside =>
            cases hinside with
            | finish => cases hparsed; rfl

/-- The white space at the ends of a text and what is between them. -/
theorem eq_append_trimmed (text : List Char) : ∃ before after,
    text = before ++ trimmed text ++ after ∧ (∀ c ∈ before, isWhiteSpace c) ∧
      ∀ c ∈ after, isWhiteSpace c := by
  refine ⟨text.takeWhile isWhiteSpace,
    (((text.dropWhile isWhiteSpace).reverse).takeWhile isWhiteSpace).reverse, ?_, ?_, ?_⟩
  · rw [trimmed, List.append_assoc, ← List.reverse_append, List.takeWhile_append_dropWhile,
      List.reverse_reverse, List.takeWhile_append_dropWhile]
  · exact fun c hc => List.all_eq_true.mp List.all_takeWhile c hc
  · exact fun c hc => List.all_eq_true.mp List.all_takeWhile c (List.mem_reverse.mp hc)

section Texts

variable {white before comment after : List Char} {position : Position}

/-- What is left of white space is white space. -/
theorem isWhiteSpace_of_leads {cursor : Cursor} (hleads : Cursor.LeadsTo ⟨white, position⟩ cursor)
    (hwhite : ∀ c ∈ white, isWhiteSpace c) : ∀ c ∈ cursor.rest.head?, isWhiteSpace c := by
  obtain ⟨taken, hrest, -⟩ := hleads
  replace hrest : white = taken ++ cursor.rest := hrest
  intro c hc
  refine hwhite c ?_
  rw [hrest]
  exact List.mem_append_right _ (List.mem_of_mem_head? hc)

/-- In a comment up to the end of the line, the characters of its line are passed over. -/
theorem GapState.skip_line_append (hsameLine : '\n' ∉ comment) : ∃ later,
    GapState.line.skip (comment ++ after) position = GapState.line.skip after later := by
  induction comment generalizing position with
  | nil => exact ⟨position, rfl⟩
  | cons c comment ih =>
    obtain ⟨hc, hcomment⟩ := not_or.mp (List.mem_cons.not.mp hsameLine)
    rw [List.cons_append, skip, if_neg (Ne.symm hc)]
    exact ih hcomment

/-- Of a comment on one line, with white space around it, no more than white space is left after the
gap at its front. -/
theorem GapState.isWhiteSpace_after_comment (hbefore : ∀ c ∈ before, isWhiteSpace c)
    (hafter : ∀ c ∈ after, isWhiteSpace c) (hsameLine : '\n' ∉ comment) :
    ∀ c ∈ (GapState.outside.skip (before ++ '/' :: '/' :: (comment ++ after)) position).rest.head?,
      isWhiteSpace c := by
  induction before generalizing position with
  | nil =>
    obtain ⟨later, hskip⟩ := @skip_line_append comment after ((position.after '/').after '/')
      hsameLine
    rw [List.nil_append, skip, hskip]
    exact isWhiteSpace_of_leads (skip_leads ⟨after, later⟩ _ _ _ (.refl _) (by simp)) hafter
  | cons c before ih =>
    obtain ⟨hc, hbefore⟩ := List.forall_mem_cons.mp hbefore
    have hslash : c ≠ '/' := by
      rintro rfl
      exact absurd hc (by decide)
    by_cases hblank : isBlank c
    · rw [List.cons_append, skip_blank hblank]
      exact ih hbefore
    · rw [List.cons_append, skip_of_not_opens (Bool.eq_false_iff.mpr hblank)
        (opensComment_of_ne hslash)]
      simpa using hc

end Texts

/-- A text whose first line, after white space, is a comment, and in which statements follow. -/
def HidesStatement (source : String) : Prop :=
  (∃ comment more, trimmed source.toList = '/' :: '/' :: comment ++ '\n' :: more) ∧
    HoldsStatement source

/-- A text in which a comment comes first holds no statement, unless it is hidden on a later
line. -/
theorem not_holdsStatement_of_comment {source : String} {comment : List Char}
    (hcommented : trimmed source.toList = '/' :: '/' :: comment) (hshown : ¬HidesStatement source) :
    ¬HoldsStatement source := by
  by_cases hline : '\n' ∈ comment
  · obtain ⟨line, more, rfl⟩ := List.append_of_mem hline
    exact fun hholds => hshown ⟨⟨line, more, hcommented⟩, hholds⟩
  · obtain ⟨before, after, htext, hbefore, hafter⟩ := eq_append_trimmed source.toList
    refine not_holdsStatement ⟨Cursor.skipGap_skipGap _, ?_⟩
    rw [Cursor.ofText, Cursor.skipGap, htext, hcommented]
    simpa using GapState.isWhiteSpace_after_comment hbefore hafter hline

/-- A blank text holds no statement. -/
theorem not_holdsStatement_of_blank {source : String} (hblank : trimmed source.toList = []) :
    ¬HoldsStatement source := by
  obtain ⟨before, after, htext, hbefore, hafter⟩ := eq_append_trimmed source.toList
  refine not_holdsStatement ⟨Cursor.skipGap_skipGap _, ?_⟩
  refine isWhiteSpace_of_leads (Cursor.skipGap_leads (.ofText source)) ?_
  rw [htext, hblank]
  simpa using fun c hc => hc.elim (hbefore c) (hafter c)

/-- Running a text that holds no statement changes nothing. -/
theorem evaluateIn_of_not_holdsStatement {source : String} (hempty : ¬HoldsStatement source)
    (host : Host) (scope : Scope) (state : State) :
    (evaluateIn host source scope state).map (·.2) = .ok state := by
  unfold evaluateIn
  split
  · rfl
  · rename_i program hparsed
    have hstatements : program.statements = [] :=
      Classical.byContradiction fun h => hempty ⟨_, program, hparsed, h⟩
    rw [hstatements]
    rfl

namespace Repl

/-- What running a source text leaves of a session, unless it is halted. -/
def sessionAfterRun (session : Session) (source : String) : Except Halt Session :=
  (evaluateIn session.host source session.scope session.state).map
    fun ended => { session with state := ended.2 }

variable {repl : Repl} {input : String}

/-- An input without a statement leaves a session as it was. -/
theorem sessionAfterRun_of_not_holdsStatement (hempty : ¬HoldsStatement input)
    (session : Session) : sessionAfterRun session input = .ok session := by
  have hstate := evaluateIn_of_not_holdsStatement hempty session.host session.scope session.state
  unfold sessionAfterRun
  generalize evaluateIn session.host input session.scope session.state = run at hstate
  cases run with
  | ok ended =>
    obtain ⟨outcome, state⟩ := ended
    obtain rfl : state = session.state := by simpa [Except.map] using hstate
    rfl
  | error halt => contradiction

/-- An input that is run leaves what running leaves, and is answered with more than nothing. -/
theorem runSource_session (repl : Repl) (input : String) :
    (repl.runSource input).map (·.2.session) = sessionAfterRun repl.session input ∧
      ∀ after, repl.runSource input ≠ .ok (.ok .idle, after) := by
  unfold runSource Session.run sessionAfterRun
  generalize evaluateIn repl.session.host input repl.session.scope repl.session.state = run
  cases run with
  | error halt =>
    refine ⟨rfl, fun after h => ?_⟩
    cases h
  | ok ended =>
    refine ⟨rfl, fun after h => ?_⟩
    obtain ⟨outcome, state⟩ := ended
    cases outcome <;> cases h

/-- An input that is no command is passed over if it is blank or starts with a comment, and run
otherwise. -/
theorem evaluate_of_no_command (hnoCommand : (trimmed input.toList).head? ≠ some ':') :
    repl.evaluate input = .ok (.ok .idle, repl) ∧
        (trimmed input.toList = [] ∨ ∃ comment, trimmed input.toList = '/' :: '/' :: comment) ∨
      repl.evaluate input = repl.runSource input := by
  unfold evaluate
  split
  · exact .inl ⟨rfl, .inl ‹_›⟩
  · exact .inl ⟨rfl, .inr ⟨_, ‹_›⟩⟩
  · rename_i hcommand
    exact absurd (by rw [hcommand]; rfl) hnoCommand
  · exact .inr rfl

/-- An input that is no command leaves the session as running it does, and is passed over only if
it holds no statement to run. The one exception is a text that hides statements after the line of a
comment: it is passed over. -/
theorem evaluate_as_run_unless_hidden (repl : Repl) (input : String)
    (hnoCommand : (trimmed input.toList).head? ≠ some ':') :
    (¬HidesStatement input →
      (repl.evaluate input).map (·.2.session) = sessionAfterRun repl.session input ∧
        ∀ after, repl.evaluate input = .ok (.ok .idle, after) → ¬HoldsStatement input) ∧
      (HidesStatement input → repl.evaluate input = .ok (.ok .idle, repl)) := by
  constructor
  · intro hshown
    rcases @evaluate_of_no_command repl input hnoCommand with ⟨hpassed, htext⟩ | hrun
    · have hempty : ¬HoldsStatement input := by
        rcases htext with hblank | ⟨comment, hcomment⟩
        · exact not_holdsStatement_of_blank hblank
        · exact not_holdsStatement_of_comment hcomment hshown
      rw [hpassed, sessionAfterRun_of_not_holdsStatement hempty]
      exact ⟨rfl, fun _ _ => hempty⟩
    · obtain ⟨hsession, hanswer⟩ := repl.runSource_session input
      rw [hrun]
      exact ⟨hsession, fun after h => absurd h (hanswer after)⟩
  · rintro ⟨⟨comment, more, htext⟩, -⟩
    simp [evaluate, htext]

/-- A declaration after a block comment is run, and one on the line after a line comment is passed
over. -/
theorem evaluate_of_commented_declarations :
    let repl := start .default fun _ => .unknown
    let shown := "/* c */ var x = true"
    let hidden := "// c\nvar x = true"
    ((trimmed shown.toList).head? ≠ some ':' ∧ (trimmed hidden.toList).head? ≠ some ':') ∧
      (¬HidesStatement shown ∧ HidesStatement hidden) ∧
      ((repl.evaluate shown).map (·.2.session) = sessionAfterRun repl.session shown ∧
        ∀ after, repl.evaluate shown = .ok (.ok .idle, after) → ¬HoldsStatement shown) ∧
      repl.evaluate hidden = .ok (.ok .idle, repl) := by
  intro repl shown hidden
  have hcommand : (trimmed shown.toList).head? ≠ some ':' := by decide +kernel
  have hcommand' : (trimmed hidden.toList).head? ≠ some ':' := by decide +kernel
  have hshown : ¬HidesStatement shown := by
    rintro ⟨⟨comment, more, htext⟩, -⟩
    have hstar : (trimmed shown.toList)[1]? = some '*' := by decide +kernel
    rw [htext] at hstar
    exact absurd (Option.some.inj hstar) (by decide)
  have hhidden : HidesStatement hidden :=
    ⟨⟨" c".toList, "var x = true".toList, by decide +kernel⟩,
      holdsStatement_of_check none (by decide +kernel)⟩
  exact ⟨⟨hcommand, hcommand'⟩, ⟨hshown, hhidden⟩,
    (evaluate_as_run_unless_hidden repl shown hcommand).1 hshown,
    (evaluate_as_run_unless_hidden repl hidden hcommand').2 hhidden⟩

/-- A declaration on the line after a comment is passed over: the session does not know its name,
which it knows after running the same text. -/
theorem evaluate_hides_declaration :
    let repl := start .default fun _ => .unknown
    let input := "// c\nvar x = true"
    (trimmed input.toList).head? ≠ some ':' ∧ HoldsStatement input ∧
      repl.evaluate input = .ok (.ok .idle, repl) ∧
      (repl.session.lookup "x").toOption = none ∧
      ∃ session, sessionAfterRun repl.session input = .ok session ∧
        (session.lookup "x").toOption = some (.bool true) := by
  intro repl input
  have htext : trimmed input.toList = '/' :: '/' :: " c\nvar x = true".toList := by decide +kernel
  refine ⟨by decide +kernel, holdsStatement_of_check none (by decide +kernel), ?_,
    by decide +kernel, ?_⟩
  · simp [evaluate, htext]
  · have hcheck : (match sessionAfterRun repl.session input with
        | .ok session => decide ((session.lookup "x").toOption = some (.bool true))
        | .error _ => false) = true := by
      decide +kernel
    split at hcheck
    · rename_i session hsession
      exact ⟨session, hsession, of_decide_eq_true hcheck⟩
    · contradiction

end Repl

end Kestrel
