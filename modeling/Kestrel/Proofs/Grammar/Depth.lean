import Kestrel.Proofs.Grammar.Gap
import Kestrel.Proofs.Grammar.Nesting

/-!
# How deep a reading goes

A reading asks only for the rules that are applied inside it. What it replies once it comes to an
end, it also replies if it may go deeper. Since applications inside each other go down and every
round of a repetition takes something, a depth in proportion to the text is always enough.
-/

namespace Kestrel

/-- Where a reader decides the rules that an application asks for, another one does the same. -/
def RuleReader.Follows (call' call : RuleReader) (application : Application) : Prop :=
  ∀ name inner later attempts,
    Relation.ReflTransGen Application.Part application ⟨inner, .rule name, later⟩ →
    call name inner later attempts ≠ .exhausted →
      call' name inner later attempts = call name inner later attempts

/-- What is asked for by a part is asked for by the whole. -/
theorem RuleReader.Follows.part {call call' : RuleReader} {outer inner : Application}
    (hfollows : call'.Follows call outer) (hpart : Application.Part outer inner) :
    call'.Follows call inner :=
  fun name mode later attempts hasked => hfollows name mode later attempts (.head hpart hasked)

namespace Pattern

variable {call call' : RuleReader} {limit limit' : Nat} {mode : Mode} {pattern : Pattern}
  {cursor : Cursor} {attempts : Attempts} {nodes : List Node}

/-- The rounds of a repetition are the same if each one is. -/
theorem readMany_eq {step step' : Cursor → Attempts → Reply} {P : Cursor → Prop}
    (hsame : ∀ cursor attempts, P cursor → step cursor attempts ≠ .exhausted →
      step' cursor attempts = step cursor attempts)
    (hkeeps : ∀ cursor attempts next more after, P cursor →
      step cursor attempts = .matched next more after → P next)
    {rounds rounds' : Nat} (hle : rounds ≤ rounds') (hstart : P cursor)
    (hends : readMany step rounds cursor attempts nodes ≠ .exhausted) :
    readMany step' rounds' cursor attempts nodes = readMany step rounds cursor attempts nodes := by
  induction rounds generalizing rounds' cursor attempts nodes with
  | zero => exact absurd rfl hends
  | succ rounds ih =>
    obtain ⟨rounds', rfl⟩ := Nat.exists_eq_succ_of_ne_zero (Nat.ne_zero_of_lt hle)
    have hround : step cursor attempts ≠ .exhausted := by
      intro hround
      simp [readMany, hround] at hends
    unfold readMany at hends ⊢
    rw [hsame cursor attempts hstart hround]
    cases hstep : step cursor attempts with
    | matched next more after =>
      rw [hstep] at hends
      exact ih (Nat.le_of_succ_le_succ hle) (hkeeps _ _ _ _ _ hstart hstep) hends
    | failed | exhausted => rfl

/-- A reading that comes to an end asks for nothing but the rules that are applied inside it, and
replies the same if more rounds are allowed. -/
theorem read_eq (hcall : call.Matches) (hle : limit ≤ limit')
    (hfollows : call'.Follows call ⟨mode, pattern, cursor⟩)
    (hends : pattern.read call limit mode cursor attempts ≠ .exhausted) :
    pattern.read call' limit' mode cursor attempts =
      pattern.read call limit mode cursor attempts := by
  induction pattern generalizing mode cursor attempts with
  | start | finish | word | range | anything => rfl
  | rule name => exact hfollows name mode cursor attempts .refl hends
  | seq first second ihFirst ihSecond =>
    have hfirst : first.read call limit mode cursor attempts ≠ .exhausted := by
      intro hfirst
      simp [read, hfirst] at hends
    have hmatch := first.matches_read hcall limit mode cursor attempts
    simp only [read] at hends ⊢
    rw [ihFirst (hfollows.part .first) hfirst]
    cases hreply : first.read call limit mode cursor attempts with
    | matched next nodes after =>
      rw [hreply] at hends hmatch
      have hsecond : second.read call limit mode (between mode next) after ≠ .exhausted := by
        intro hsecond
        simp [hsecond] at hends
      dsimp only
      rw [ihSecond (hfollows.part (.second hmatch)) hsecond]
    | failed | exhausted => rfl
  | alt first second ihFirst ihSecond =>
    have hfirst : first.read call limit mode cursor attempts ≠ .exhausted := by
      intro hfirst
      simp [read, hfirst] at hends
    simp only [read] at hends ⊢
    rw [ihFirst (hfollows.part .left) hfirst]
    cases hreply : first.read call limit mode cursor attempts with
    | failed after =>
      rw [hreply] at hends
      exact ihSecond (hfollows.part .right) hends
    | matched | exhausted => rfl
  | opt body ih =>
    have hbody : body.read call limit mode cursor attempts ≠ .exhausted := by
      intro hbody
      simp [read, hbody] at hends
    simp only [read]
    rw [ih (hfollows.part .opt) hbody]
  | many body ih =>
    have hbody : body.read call limit mode cursor attempts ≠ .exhausted := by
      intro hbody
      simp [read, hbody] at hends
    have hmatch := body.matches_read hcall limit mode cursor attempts
    simp only [read] at hends ⊢
    rw [ih (hfollows.part .round) hbody]
    cases hreply : body.read call limit mode cursor attempts with
    | matched next nodes after =>
      rw [hreply] at hends hmatch
      -- wherever the rounds have come to, another one is a part of the repetition
      refine readMany_eq (P := fun later => ∃ nodes, Matches mode (.many body) cursor nodes later)
        ?_ ?_ hle ⟨_, hmatch.manyFirst⟩ hends
      · rintro later attempts ⟨_, hsofar⟩ hround
        exact ih (hfollows.part (.again hsofar)) hround
      · rintro later attempts next more after ⟨_, hsofar⟩ hround
        have hmatch := body.matches_read hcall limit mode (between mode later) attempts
        rw [hround] at hmatch
        exact ⟨_, hsofar.manyNext hmatch⟩
    | failed | exhausted => rfl
  | absent body ih =>
    have hbody : body.read call limit .token cursor attempts ≠ .exhausted := by
      intro hbody
      simp [read, hbody] at hends
    simp only [read]
    rw [ih (hfollows.part .absent) hbody]

/-- A pattern with all its parts. -/
def parts (pattern : Pattern) : List Pattern :=
  pattern :: match pattern with
    | .seq first second | .alt first second => first.parts ++ second.parts
    | .opt body | .many body | .absent body => body.parts
    | .start | .finish | .word _ | .range _ _ | .anything | .rule _ => []

/-- The patterns of the grammar: the rules, and the parts of what rules and gaps consist of. Some of
these parts are rules that leave no node. -/
def OfGrammar (pattern : Pattern) : Prop :=
  (∃ rule : Rule, pattern = .rule rule ∨ pattern ∈ rule.definition.body.parts) ∨
    pattern ∈ gap.parts

/-- What repeats only what takes something does so in all its parts. -/
theorem descends_of_mem_parts {height : Nat} {fresh : Bool} {part : Pattern}
    (hdescends : pattern.descends height fresh) (hmember : part ∈ pattern.parts) :
    part.descends 10 true := by
  have hself : pattern.descends 10 true := descends_ten hdescends true
  induction pattern generalizing fresh with
  | start | finish | word | range | anything | rule =>
    rw [List.mem_singleton.mp hmember]
    exact hself
  | seq first second ihFirst ihSecond | alt first second ihFirst ihSecond =>
    obtain ⟨hfirst, hsecond⟩ := Bool.and_eq_true_iff.mp hdescends
    rcases List.mem_cons.mp hmember with rfl | hmember
    · exact hself
    · rcases List.mem_append.mp hmember with hmember | hmember
      · exact ihFirst hfirst hmember (descends_ten hfirst true)
      · exact ihSecond hsecond hmember (descends_ten hsecond true)
  | opt body ih | absent body ih =>
    rcases List.mem_cons.mp hmember with rfl | hmember
    · exact hself
    · exact ih hdescends hmember hself
  | many body ih =>
    rcases List.mem_cons.mp hmember with rfl | hmember
    · exact hself
    · simp only [Pattern.descends, Bool.and_eq_true] at hdescends
      exact ih hdescends.2 hmember (descends_ten hdescends.2 true)

/-- In the grammar only what takes something is repeated. -/
theorem OfGrammar.descends (hgrammar : pattern.OfGrammar) : pattern.descends 10 true := by
  rcases hgrammar with ⟨rule, rfl | hmember⟩ | hmember
  · exact rule.descends
  · exact descends_of_mem_parts rule.descends_body hmember
  · exact descends_of_mem_parts gap_descends hmember

/-- What takes something leads on by at least one byte. -/
theorem offset_lt_of_matched (hcall : call.Matches) (hadvances : pattern.advances) {next : Cursor}
    {after : Attempts}
    (hmatched : pattern.read call limit mode cursor attempts = .matched next nodes after) :
    cursor.position.offset < next.position.offset := by
  have hmatch := pattern.matches_read hcall limit mode cursor attempts
  rw [hmatched] at hmatch
  exact hmatch.takes.advances hadvances

end Pattern

namespace Rule

/-- A reading that comes to an end replies the same if it may go deeper. -/
theorem read_eq_of_le {depth depth' : Nat} (hle : depth ≤ depth') {rule : Rule} {mode : Mode}
    {cursor : Cursor} {attempts : Attempts}
    (hends : read depth rule mode cursor attempts ≠ .exhausted) :
    read depth' rule mode cursor attempts = read depth rule mode cursor attempts := by
  induction depth generalizing depth' rule mode cursor attempts with
  | zero => exact absurd rfl hends
  | succ depth ih =>
    obtain ⟨depth', rfl⟩ := Nat.exists_eq_succ_of_ne_zero (Nat.ne_zero_of_lt hle)
    have hle' := Nat.le_of_succ_le_succ hle
    have hbody : rule.definition.body.read (read depth') depth'
        (mode.inside rule.definition.mode) cursor attempts =
          rule.definition.body.read (read depth) depth (mode.inside rule.definition.mode) cursor
            attempts := by
      refine Pattern.read_eq (matches_read depth) hle' (fun _ _ _ _ _ => ih hle') ?_
      intro hbody
      cases mode <;> simp only [read, Mode.inside] at hends hbody <;> simp [hbody] at hends
    simp only [read, hbody]

/-- A rule asks only for rules that are applied inside it. -/
theorem read_body_eq {depth : Nat} {rule : Rule} {mode : Mode} {cursor : Cursor}
    {attempts : Attempts} {call : RuleReader}
    (hsame : ∀ name inner later attempts,
      Application.Nests ⟨mode, .rule rule, cursor⟩ ⟨inner, .rule name, later⟩ →
        call name inner later attempts = read depth name inner later attempts)
    (hends : rule.definition.body.read (read depth) depth (mode.inside rule.definition.mode) cursor
      attempts ≠ .exhausted) :
    rule.definition.body.read call depth (mode.inside rule.definition.mode) cursor attempts =
      rule.definition.body.read (read depth) depth (mode.inside rule.definition.mode) cursor
        attempts := by
  refine Pattern.read_eq (matches_read depth) (Nat.le_refl _) ?_ hends
  intro name inner later attempts hasked _
  have hparts : Relation.ReflTransGen Application.Makes
      ⟨mode.inside rule.definition.mode, rule.definition.body, cursor⟩
      ⟨inner, .rule name, later⟩ :=
    Relation.ReflTransGen.mono (fun _ _ hpart => Application.Makes.part hpart) _ _ hasked
  exact hsame name inner later attempts (Relation.TransGen.head' .body hparts)

end Rule

namespace Pattern

variable {pattern : Pattern} {source : String} {cursor : Cursor} {depth : Nat}

/-- Wherever in a text a reading starts, a depth of ten for every character, and ten more, is
enough. -/
theorem OfGrammar.read_ne_exhausted (hgrammar : pattern.OfGrammar) (hwithin : cursor.In source)
    (henough : 10 * (source.length + 1) ≤ depth) (mode : Mode) (attempts : Attempts) :
    pattern.read (Rule.read depth) depth mode cursor attempts ≠ .exhausted := by
  have hlength : cursor.rest.length ≤ source.length := by
    rw [← source.length_toList]
    exact hwithin.length_le
  refine Pattern.read_ne_exhausted (Rule.matches_read depth) cursor.rest.length 10 (by omega) ?_
    hgrammar.descends (.inr ⟨rfl, rfl⟩) mode attempts
  intro name mode later attempts hfurther
  have hheight := name.height_lt
  have hle := hfurther.le
  exact Rule.read_ne_exhausted (by omega) mode attempts

/-- To go deeper than that changes nothing. -/
theorem OfGrammar.read_eq (hgrammar : pattern.OfGrammar) (hwithin : cursor.In source)
    (henough : 10 * (source.length + 1) ≤ depth) (mode : Mode) (attempts : Attempts) :
    pattern.read (Rule.read depth) depth mode cursor attempts =
      pattern.read (Rule.read (10 * (source.length + 1))) (10 * (source.length + 1)) mode cursor
        attempts :=
  Pattern.read_eq (Rule.matches_read _) henough (fun _ _ _ _ _ => Rule.read_eq_of_le henough)
    (hgrammar.read_ne_exhausted hwithin (Nat.le_refl _) mode attempts)

end Pattern

/-- Reading comes to an end, for every text, every rule and every place to start. A depth that is in
proportion to the length of the text is enough, and to go deeper changes nothing. The reasons are
two. Nothing is applied inside itself, through whatever rules, before at least one byte was taken;
so no chain of applications goes on for ever, and what a rule replies depends on the applications
inside it only. And every round of a repetition takes at least one byte; so do the rounds of a gap,
which is skipped as reading its pattern skips it. -/
theorem reading_comes_to_an_end :
    (∀ pattern : Pattern, pattern.OfGrammar → ∀ (source : String) (cursor : Cursor),
      cursor.In source → ∀ mode attempts depth, 10 * (source.length + 1) ≤ depth →
        pattern.read (Rule.read depth) depth mode cursor attempts ≠ .exhausted ∧
        pattern.read (Rule.read depth) depth mode cursor attempts =
          pattern.read (Rule.read (10 * (source.length + 1))) (10 * (source.length + 1)) mode
            cursor attempts) ∧
    (∀ (rule : Rule) (source : String), rule.readText source ≠ .exhausted) ∧
    (∀ pattern mode inner cursor later,
      Application.Nests ⟨mode, pattern, cursor⟩ ⟨inner, pattern, later⟩ →
        cursor.position.offset < later.position.offset) ∧
    (WellFounded fun inner outer => Application.Makes outer inner) ∧
    (∀ depth (call : RuleReader) (rule : Rule) (mode : Mode) cursor attempts,
      let reply := fun call => rule.definition.body.read call depth
        (mode.inside rule.definition.mode) cursor attempts
      (∀ name inner later attempts,
        Application.Nests ⟨mode, .rule rule, cursor⟩ ⟨inner, .rule name, later⟩ →
          call name inner later attempts = Rule.read depth name inner later attempts) →
      reply (Rule.read depth) ≠ .exhausted → reply call = reply (Rule.read depth)) ∧
    (∀ body, (Pattern.many body).OfGrammar →
      ∀ depth limit mode cursor attempts next nodes after,
        body.read (Rule.read depth) limit mode cursor attempts = .matched next nodes after →
          cursor.position.offset < next.position.offset) ∧
    ∀ cursor : Cursor, Reads .token .gap cursor (some ([], cursor.skipGap)) := by
  refine ⟨?_, ?_, fun _ _ _ _ _ hnests => hnests.further, Application.Makes.wellFounded,
    fun depth call rule mode cursor attempts => Rule.read_body_eq, ?_, reads_gap⟩
  · intro pattern hgrammar source cursor hwithin mode attempts depth henough
    exact ⟨hgrammar.read_ne_exhausted hwithin henough mode attempts,
      hgrammar.read_eq hwithin henough mode attempts⟩
  · intro rule source
    have hrule : (Pattern.rule rule).OfGrammar := .inl ⟨rule, .inl rfl⟩
    refine hrule.read_ne_exhausted Cursor.ofText_in ?_ .spaced .none
    simp only [Rule.depthPerCharacter]
    omega
  · intro body hgrammar depth limit mode cursor attempts next nodes after hmatched
    have hdescends := hgrammar.descends
    simp only [Pattern.descends, Bool.and_eq_true] at hdescends
    exact Pattern.offset_lt_of_matched (Rule.matches_read depth) hdescends.1.1 hmatched

/-- The expression in brackets is applied inside the one with the brackets, one byte further on, and
both are read to the end. -/
theorem bracketed_expression_comes_to_an_end :
    let outside : Cursor := ⟨['(', '1', ')'], ⟨0, 1⟩⟩
    let inside : Cursor := ⟨['1', ')'], ⟨1, 1⟩⟩
    Application.Nests ⟨.spaced, .rule .expression, outside⟩ ⟨.spaced, .rule .expression, inside⟩ ∧
      outside.position.offset < inside.position.offset ∧
      ∀ cursor ∈ [outside, inside], cursor.In "(1)" ∧
        Rule.read 40 .expression .spaced cursor .none ≠ .exhausted := by
  intro outside inside
  obtain ⟨hends, _, hfurther, _⟩ := reading_comes_to_an_end
  have hoperand : Application.Nests ⟨.spaced, .rule .expression, outside⟩
      ⟨.spaced, .rule .postfixExpr, outside⟩ :=
    .head .body (.head (.part .first) (.head .body
      (.head (.part (.second .manyNone)) (.single (.part .first)))))
  have hprimary : Application.Nests ⟨.spaced, .rule .postfixExpr, outside⟩
      ⟨.spaced, .primaryExpr, outside⟩ := .head .body (.single (.part .first))
  have hlast : Application.Nests ⟨.spaced, .primaryExpr, outside⟩
      ⟨.spaced, .inOrder [.text "(", .rule .expression, .text ")"], outside⟩ :=
    .head (.part .right) (.head (.part .right) (.head (.part .right) (.head (.part .right)
      (.head (.part .right) (.head (.part .right) (.head (.part .right)
        (.head (.part .right) (.single (.part .right)))))))))
  have hbracket : Matches .spaced (Pattern.text "(") outside [] inside := .word (by decide)
  have hnests : Application.Nests ⟨.spaced, .rule .expression, outside⟩
      ⟨.spaced, .rule .expression, inside⟩ :=
    ((hoperand.trans hprimary).trans hlast).trans
      (.head (.part (.second hbracket)) (.single (.part .first)))
  have htext : "(1)".toList = ['(', '1', ')'] := by decide
  have hwithin' : ∀ cursor ∈ [outside, inside], cursor.In "(1)" := by
    simp only [List.forall_mem_cons, List.not_mem_nil, false_imp_iff, implies_true, and_true]
    exact ⟨⟨[], htext, rfl⟩, ⟨['('], htext, rfl⟩⟩
  have hgrammar : (Pattern.rule .expression).OfGrammar := .inl ⟨.expression, .inl rfl⟩
  refine ⟨hnests, hfurther _ _ _ _ _ hnests, fun cursor hmember => ?_⟩
  have hwithin := hwithin' cursor hmember
  exact ⟨hwithin, (hends _ hgrammar "(1)" cursor hwithin .spaced .none 40 (by decide)).1⟩

end Kestrel
