import Kestrel.Proofs.Grammar.Spelling
import Kestrel.Proofs.Source.Comment

/-!
# Reading without comments

A text and the same text with its comments overwritten are read alike: the reader is at the same
places of both, and comes to the same replies. What a pattern asks of the characters decides this:
where it takes a character outside of strings, that is none of a comment and opens no string; a
slash is taken only after a gap, where no comment is left.
-/

namespace Kestrel

/-- Whether a test of characters is passed by no blank and no quotation mark, and by a slash only
where no comment can start. -/
def isBlindTest (settled : Bool) (test : Char → Bool) : Bool :=
  !test ' ' && !test '"' && (settled || !test '/')

namespace Pattern

/-- Whether a word is read alike in a text and in the text without comments. -/
def isBlindWord : (settled : Bool) → List Char → Bool
  | _, [] => true
  | settled, c :: letters => isBlindTest settled (· == c) && isBlindWord false letters

/-- Whether a pattern is read alike in a text and in the text without comments, provided that the
rules in it are; `settled` tells whether no comment can start where it is read. -/
def isBlind : (mode : Mode) → (settled : Bool) → Pattern → Bool
  | _, _, .start | _, _, .finish => true
  | _, settled, .word letters => isBlindWord settled letters
  | _, settled, .range low high => isBlindTest settled fun c => low ≤ c && c ≤ high
  | _, _, .anything => false
  | mode, settled, .rule name =>
    settled && name != .stringContent &&
      (mode == .spaced || (mode == .token && name.definition.mode == .token))
  | mode, settled, .seq first second =>
    first.isBlind mode settled && second.isBlind mode (mode == .spaced)
  | mode, settled, .alt first second => first.isBlind mode settled && second.isBlind mode settled
  | mode, settled, .opt body => body.isBlind mode settled
  | mode, settled, .many body => body.isBlind mode settled && body.isBlind mode (mode == .spaced)
  | _, settled, .absent body => body.isBlind .token settled

end Pattern

/-- Every rule but those of a string is read alike in a text and in the text without comments. -/
theorem Rule.isBlind_body {rule : Rule} (hstring : rule ≠ .string)
    (hcontent : rule ≠ .stringContent) :
    rule.definition.body.isBlind rule.definition.mode true := by
  cases rule <;> first | contradiction | decide +kernel

/-- A program is so even if it starts with a comment. -/
theorem Rule.isBlind_program : Rule.program.definition.body.isBlind .spaced false := by
  decide +kernel

namespace Cursor

variable {zone : Zone} {cursor next last : Cursor} {test : Char → Bool} {letters : List Char}
  {settled : Bool}

/-- Up to a later cursor in the same zone nothing is overwritten. -/
def Keeps (zone : Zone) (cursor next : Cursor) : Prop :=
  ∃ taken, cursor.rest = taken ++ next.rest ∧
    (cursor.blanked zone).rest = taken ++ (next.blanked zone).rest ∧
    next.position = taken.foldl Position.after cursor.position

/-- Up to the same place nothing is overwritten. -/
@[refl] theorem Keeps.refl (zone : Zone) (cursor : Cursor) : cursor.Keeps zone cursor :=
  ⟨[], rfl, rfl, rfl⟩

/-- What is kept up to a place, and from there on to another one, is kept up to that one. -/
theorem Keeps.trans (hfirst : cursor.Keeps zone next) (hsecond : next.Keeps zone last) :
    cursor.Keeps zone last := by
  obtain ⟨taken, hrest, hblanked, hposition⟩ := hfirst
  obtain ⟨more, hrest', hblanked', hposition'⟩ := hsecond
  exact ⟨taken ++ more, by simp [hrest, hrest'], by simp [hblanked, hblanked'],
    by simp [hposition, hposition']⟩

/-- The text up to where everything is kept is the same without comments. -/
theorem Keeps.textTo_blanked (hkeeps : cursor.Keeps zone next) :
    (cursor.blanked zone).textTo (next.blanked zone) = cursor.textTo next := by
  obtain ⟨taken, hrest, hblanked, hposition⟩ := hkeeps
  rw [textTo_eq hrest hposition, textTo_eq hblanked hposition]

@[simp] theorem isEmpty_rest_blanked (zone : Zone) (cursor : Cursor) :
    (cursor.blanked zone).rest.isEmpty = cursor.rest.isEmpty := by
  rw [Bool.eq_iff_iff, List.isEmpty_iff, List.isEmpty_iff]
  exact Zone.blanked_eq_nil_iff

/-- Where no comment starts a character is kept. -/
theorem blanked_code_of_not_opens {c : Char} {rest : List Char} {position : Position}
    (hplain : opensComment (c :: rest) = false) :
    blanked ⟨c :: rest, position⟩ .code =
      ⟨c :: (if c = '"' then Zone.string else .code).blanked rest, position⟩ := by
  rw [blanked, Zone.blanked_code_cons hplain]

/-- A step in code and the same one in the text without comments. -/
inductive StepsAlike (cursor : Cursor) : Option Cursor → Option Cursor → Prop
  | taken {next : Cursor} (hkeeps : cursor.Keeps .code next) :
      StepsAlike cursor (some next) (some (next.blanked .code))
  | none : StepsAlike cursor none none

/-- A character that a blind test asks for is taken in both texts or in none. -/
theorem take?_blanked (hblind : isBlindTest settled test) (hstart : settled → cursor.Settled) :
    cursor.StepsAlike (cursor.take? test) ((cursor.blanked .code).take? test) := by
  simp only [isBlindTest, Bool.and_eq_true, Bool.not_eq_true', Bool.or_eq_true] at hblind
  obtain ⟨⟨hblank, hquote⟩, hslash⟩ := hblind
  obtain ⟨rest, position⟩ := cursor
  cases rest with
  | nil => simpa [blanked, take?] using .none
  | cons c rest =>
    cases hopens : opensComment (c :: rest) with
    | false =>
      have hkept := @blanked_code_of_not_opens c rest position hopens
      by_cases hc : test c
      · have hcode : c ≠ '"' := by
          rintro rfl
          simp [hquote] at hc
        rw [if_neg hcode] at hkept
        have hkeeps : Keeps .code ⟨c :: rest, position⟩ ⟨rest, position.after c⟩ :=
          ⟨[c], rfl, by rw [hkept]; rfl, rfl⟩
        have hstep : take? ⟨c :: rest, position⟩ test = some ⟨rest, position.after c⟩ :=
          if_pos hc
        have hblanked : (blanked ⟨c :: rest, position⟩ .code).take? test =
            some (blanked ⟨rest, position.after c⟩ .code) := by
          rw [hkept]
          exact if_pos hc
        rw [hstep, hblanked]
        exact .taken hkeeps
      · simpa [hkept, take?, hc] using StepsAlike.none
    | true =>
      -- a comment starts here, and its slash is not what the test asks for
      obtain ⟨rfl, -⟩ := opensComment_cons.mp hopens
      have hslash : test '/' = false := by
        refine hslash.resolve_left fun hsettled => ?_
        exact Bool.false_ne_true ((hstart hsettled).symm.trans hopens)
      obtain ⟨others, hothers⟩ := Zone.blanked_code_of_opens hopens
      simpa [blanked, hothers, take?, hblank, hslash] using StepsAlike.none

/-- A blind word is read in both texts or in none. -/
theorem word?_blanked (hblind : Pattern.isBlindWord settled letters)
    (hstart : settled → cursor.Settled) :
    cursor.StepsAlike (cursor.word? letters) ((cursor.blanked .code).word? letters) := by
  induction letters generalizing cursor settled with
  | nil => exact .taken (.refl ..)
  | cons c letters ih =>
    simp only [Pattern.isBlindWord, Bool.and_eq_true] at hblind
    unfold word?
    have hfirst := take?_blanked hblind.1 hstart
    generalize cursor.take? (· == c) = step, (cursor.blanked .code).take? (· == c) = step'
      at hfirst ⊢
    cases hfirst with
    | none => exact .none
    | @taken next hkeeps =>
      dsimp only
      have hothers' : next.StepsAlike (next.word? letters) ((next.blanked .code).word? letters) :=
        ih hblind.2 (absurd · Bool.false_ne_true)
      generalize next.word? letters = last, (next.blanked .code).word? letters = last'
        at hothers' ⊢
      cases hothers' with
      | none => exact .none
      | taken hothers => exact .taken (hkeeps.trans hothers)

/-- A quotation mark opens a string in both texts or in none. -/
theorem word?_quote_code (cursor : Cursor) :
    (cursor.blanked .code).word? ['"'] = (cursor.word? ['"']).map (·.blanked .string) := by
  obtain ⟨rest, position⟩ := cursor
  cases rest with
  | nil => simp [blanked, word?, take?]
  | cons c rest =>
    cases hopens : opensComment (c :: rest) with
    | false =>
      rw [blanked_code_of_not_opens hopens]
      by_cases hc : c = '"' <;> simp [word?, take?, hc, blanked]
    | true =>
      obtain ⟨rfl, -⟩ := opensComment_cons.mp hopens
      obtain ⟨others, hothers⟩ := Zone.blanked_code_of_opens hopens
      simp [blanked, hothers, word?, take?]

/-- A quotation mark closes a string in both texts or in none. -/
theorem word?_quote_string (cursor : Cursor) :
    (cursor.blanked .string).word? ['"'] = (cursor.word? ['"']).map (·.blanked .code) := by
  obtain ⟨rest, position⟩ := cursor
  cases rest with
  | nil => simp [blanked, word?, take?]
  | cons c rest =>
    by_cases hc : c = '"'
    · subst hc
      simp [blanked, Zone.blanked_string_quote, word?, take?]
    · obtain ⟨others, hothers⟩ := Zone.blanked_string_first c rest
      simp [blanked, hothers, word?, take?, hc]

end Cursor

/-- Replies to one question, about a text and about the text without comments, that say the same.
Only the first may be that the depth did not suffice. -/
inductive Reply.Agrees (zone : Zone) (mode : Mode) (cursor : Cursor) : Reply → Reply → Prop
  | matched {next : Cursor} {nodes : List Node} {attempts attempts' : Attempts}
      (hkeeps : mode = .token → cursor.Keeps zone next) :
      Agrees zone mode cursor (.matched next nodes attempts)
        (.matched (next.blanked zone) nodes attempts')
  | failed {attempts attempts' : Attempts} :
      Agrees zone mode cursor (.failed attempts) (.failed attempts')
  | exhausted {reply : Reply} : Agrees zone mode cursor .exhausted reply

/-- A question that is put later may as well have been put before what is kept. -/
theorem Reply.Agrees.after {zone : Zone} {mode : Mode} {start cursor : Cursor}
    {reply reply' : Reply} (hagrees : reply.Agrees zone mode cursor reply')
    (hkeeps : mode = .token → start.Keeps zone cursor) : reply.Agrees zone mode start reply' := by
  cases hagrees with
  | matched hothers => exact .matched fun htoken => (hkeeps htoken).trans (hothers htoken)
  | failed => exact .failed
  | exhausted => exact .exhausted

/-- Two readers of rules, one of a text and one of the text without comments, that agree wherever a
rule may be read in code. -/
def RuleReader.Agrees (call call' : RuleReader) : Prop :=
  ∀ name mode (cursor : Cursor), name ≠ .stringContent → cursor.Settled →
    (mode = .spaced ∨ mode = .token ∧ name.definition.mode = .token) →
    ∀ attempts attempts', (call name mode cursor attempts).Agrees .code mode cursor
      (call' name mode (cursor.blanked .code) attempts')

namespace Pattern

variable {call call' : RuleReader} {limit limit' : Nat} {zone : Zone} {mode : Mode}
  {pattern : Pattern} {settled : Bool} {start cursor : Cursor} {attempts attempts' : Attempts}
  {nodes : List Node}

/-- Overwriting comments makes no difference to where a gap leads. -/
theorem between_blanked (mode : Mode) (cursor : Cursor) :
    between mode (cursor.blanked .code) = (between mode cursor).blanked .code := by
  cases mode with
  | spaced => exact cursor.skipGap_blanked
  | tight | token => rfl

/-- After a gap no comment starts. -/
theorem settled_between (hspaced : mode == .spaced) (cursor : Cursor) :
    (between mode cursor).Settled := by
  obtain rfl := eq_of_beq hspaced
  exact cursor.settled_skipGap

/-- Inside a token there is no gap, in which something could be overwritten. -/
theorem keeps_between (htoken : mode = .token) (cursor : Cursor) :
    cursor.Keeps zone (between mode cursor) := by
  subst htoken
  exact .refl ..

/-- Repetitions agree if their rounds do. The reader of the text without comments may go on for
longer. -/
theorem agrees_readMany (hle : limit ≤ limit') {step step' : Cursor → Attempts → Reply}
    (hrounds : ∀ cursor attempts attempts',
      (step cursor attempts).Agrees zone mode cursor (step' (cursor.blanked zone) attempts'))
    (hsofar : mode = .token → start.Keeps zone cursor) :
    (readMany step limit cursor attempts nodes).Agrees zone mode start
      (readMany step' limit' (cursor.blanked zone) attempts' nodes) := by
  induction limit generalizing limit' cursor attempts attempts' nodes with
  | zero => exact .exhausted
  | succ limit ih =>
    obtain _ | limit' := limit'
    · contradiction
    unfold readMany
    have hround := (hrounds cursor attempts attempts').after hsofar
    generalize step cursor attempts = reply, step' (cursor.blanked zone) attempts' = reply'
      at hround ⊢
    cases hround with
    | matched hkeeps => exact ih (Nat.le_of_succ_le_succ hle) hkeeps
    | failed => exact .matched hsofar
    | exhausted => exact .exhausted

/-- A repetition agrees if its first round does and those after it do. -/
theorem agrees_many (hle : limit ≤ limit')
    (hfirst : (pattern.read call limit mode cursor attempts).Agrees zone mode cursor
      (pattern.read call' limit' mode (cursor.blanked zone) attempts'))
    (hrounds : ∀ cursor attempts attempts',
      (pattern.read call limit mode (between mode cursor) attempts).Agrees zone mode cursor
        (pattern.read call' limit' mode (between mode (cursor.blanked zone)) attempts')) :
    ((Pattern.many pattern).read call limit mode cursor attempts).Agrees zone mode cursor
      ((Pattern.many pattern).read call' limit' mode (cursor.blanked zone) attempts') := by
  simp only [read]
  generalize pattern.read call limit mode cursor attempts = reply,
    pattern.read call' limit' mode (cursor.blanked zone) attempts' = reply' at hfirst ⊢
  cases hfirst with
  | matched hkeeps => exact agrees_readMany hle hrounds hkeeps
  | failed => exact .matched fun _ => .refl ..
  | exhausted => exact .exhausted

/-- If the readers of the rules agree, so do the readers of every blind pattern. -/
theorem agrees_read (hcall : call.Agrees call') (hle : limit ≤ limit')
    (hblind : pattern.isBlind mode settled) (hstart : settled → cursor.Settled)
    (attempts attempts' : Attempts) :
    (pattern.read call limit mode cursor attempts).Agrees .code mode cursor
      (pattern.read call' limit' mode (cursor.blanked .code) attempts') := by
  induction pattern generalizing mode settled cursor attempts attempts' with
  | start =>
    have hoffset : (cursor.blanked .code).position.offset = cursor.position.offset := rfl
    by_cases h : cursor.position.offset = 0
    · rw [read, read, if_pos h, if_pos (hoffset.trans h)]
      exact .matched fun _ => .refl ..
    · rw [read, read, if_neg h, if_neg (hoffset ▸ h)]
      exact .failed
  | finish =>
    simp only [read, Cursor.isEmpty_rest_blanked]
    by_cases h : cursor.rest.isEmpty
    · rw [if_pos h, if_pos h]
      exact .matched fun _ => .refl ..
    · rw [if_neg h, if_neg h]
      exact .failed
  | word letters =>
    simp only [read]
    have hword := Cursor.word?_blanked hblind hstart
    generalize cursor.word? letters = step, (cursor.blanked .code).word? letters = step'
      at hword ⊢
    cases hword with
    | taken hkeeps => exact .matched fun _ => hkeeps
    | none => exact .failed
  | range low high =>
    simp only [read]
    have hstep := Cursor.take?_blanked hblind hstart
    generalize (cursor.take? fun c => low ≤ c && c ≤ high) = step,
      ((cursor.blanked .code).take? fun c => low ≤ c && c ≤ high) = step' at hstep ⊢
    cases hstep with
    | taken hkeeps => exact .matched fun _ => hkeeps
    | none => exact .failed
  | anything => contradiction
  | rule name =>
    simp only [isBlind, Bool.and_eq_true, Bool.or_eq_true, bne_iff_ne, beq_iff_eq] at hblind
    exact hcall name mode cursor hblind.1.2 (hstart hblind.1.1) hblind.2 attempts attempts'
  | seq first second ihFirst ihSecond =>
    simp only [isBlind, Bool.and_eq_true] at hblind
    simp only [read]
    have hfirst := ihFirst hblind.1 hstart attempts attempts'
    generalize first.read call limit mode cursor attempts = reply,
      first.read call' limit' mode (cursor.blanked .code) attempts' = reply' at hfirst ⊢
    cases hfirst with
    | @matched next _ attempts attempts' hkeeps =>
      have hsecond := (ihSecond hblind.2 (fun hspaced => settled_between hspaced next) attempts
        attempts').after fun htoken => (hkeeps htoken).trans (keeps_between htoken next)
      dsimp only
      rw [between_blanked]
      generalize second.read call limit mode (between mode next) attempts = reply,
        second.read call' limit' mode ((between mode next).blanked .code) attempts' = reply'
        at hsecond ⊢
      cases hsecond with
      | matched hkeeps => exact .matched hkeeps
      | failed => exact .failed
      | exhausted => exact .exhausted
    | failed => exact .failed
    | exhausted => exact .exhausted
  | alt first second ihFirst ihSecond =>
    simp only [isBlind, Bool.and_eq_true] at hblind
    simp only [read]
    have hfirst := ihFirst hblind.1 hstart attempts attempts'
    generalize first.read call limit mode cursor attempts = reply,
      first.read call' limit' mode (cursor.blanked .code) attempts' = reply' at hfirst ⊢
    cases hfirst with
    | matched hkeeps => exact .matched hkeeps
    | failed => exact ihSecond hblind.2 hstart _ _
    | exhausted => exact .exhausted
  | opt body ih =>
    simp only [read]
    have hbody := ih hblind hstart attempts attempts'
    generalize body.read call limit mode cursor attempts = reply,
      body.read call' limit' mode (cursor.blanked .code) attempts' = reply' at hbody ⊢
    cases hbody with
    | matched hkeeps => exact .matched hkeeps
    | failed => exact .matched fun _ => .refl ..
    | exhausted => exact .exhausted
  | many body ih =>
    simp only [isBlind, Bool.and_eq_true] at hblind
    refine agrees_many hle (ih hblind.1 hstart attempts attempts')
      fun cursor attempts attempts' => ?_
    rw [between_blanked]
    exact (ih hblind.2 (fun hspaced => settled_between hspaced cursor) attempts attempts').after
      fun htoken => keeps_between htoken cursor
  | absent body ih =>
    have hbody : Reply.Agrees .code .token cursor (body.read call limit .token cursor attempts)
        (body.read call' limit' .token (cursor.blanked .code) attempts') :=
      ih hblind hstart attempts attempts'
    simp only [read]
    generalize body.read call limit .token cursor attempts = reply,
      body.read call' limit' .token (cursor.blanked .code) attempts' = reply' at hbody ⊢
    cases hbody with
    | matched => exact .failed
    | failed => exact .matched fun _ => .refl ..
    | exhausted => exact .exhausted

end Pattern

namespace Rule

variable {rule : Rule} {zone : Zone} {mode : Mode} {depth depth' : Nat} {cursor : Cursor}

/-- If the insides of a rule are read alike, so is the rule. -/
theorem agrees_read_succ (attempts attempts' : Attempts)
    (hinside : (rule.definition.body.read (read depth) depth (mode.inside rule.definition.mode)
        cursor attempts).Agrees zone (mode.inside rule.definition.mode) cursor
      (rule.definition.body.read (read depth') depth' (mode.inside rule.definition.mode)
        (cursor.blanked zone) attempts')) :
    (read (depth + 1) rule mode cursor attempts).Agrees zone mode cursor
      (read (depth' + 1) rule mode (cursor.blanked zone) attempts') := by
  cases mode with
  | token =>
    simp only [read, Mode.inside] at hinside ⊢
    generalize rule.definition.body.read (read depth) depth .token cursor attempts = reply,
      rule.definition.body.read (read depth') depth' .token (cursor.blanked zone) attempts' = reply'
      at hinside ⊢
    cases hinside with
    | matched hkeeps => exact .matched hkeeps
    | failed => exact .failed
    | exhausted => exact .exhausted
  | spaced | tight =>
    simp only [read, Mode.inside] at hinside ⊢
    generalize rule.definition.body.read (read depth) depth rule.definition.mode cursor attempts =
        reply,
      rule.definition.body.read (read depth') depth' rule.definition.mode (cursor.blanked zone)
        attempts' = reply' at hinside ⊢
    cases hinside with
    | @matched next nodes _ _ hkeeps =>
      dsimp only
      cases hmode : rule.definition.mode with
      | token =>
        dsimp only
        rw [(hkeeps hmode).textTo_blanked]
        exact .matched (absurd · (by decide))
      | spaced | tight => exact .matched (absurd · (by decide))
    | failed => exact .failed
    | exhausted => exact .exhausted

/-- One character of a string, or two after a backslash, are read alike. -/
theorem agrees_stringItem {call call' : RuleReader} {limit limit' : Nat} (cursor : Cursor)
    (attempts attempts' : Attempts) :
    (Pattern.stringItem.read call limit .token cursor attempts).Agrees .string .token cursor
      (Pattern.stringItem.read call' limit' .token (cursor.blanked .string) attempts') := by
  obtain ⟨rest, position⟩ := cursor
  rcases rest with _ | ⟨c, rest⟩
  · exact .failed
  by_cases hbackslash : c = '\\'
  · subst hbackslash
    rcases rest with _ | ⟨c, rest⟩
    · rw [Cursor.blanked, Zone.blanked_string_backslash]
      exact .failed
    · have hkeeps : Cursor.Keeps .string ⟨'\\' :: c :: rest, position⟩
          ⟨rest, (position.after '\\').after c⟩ :=
        ⟨['\\', c], rfl, Zone.blanked_string_escape, rfl⟩
      rw [Cursor.blanked, Zone.blanked_string_escape]
      exact .matched fun _ => hkeeps
  by_cases hquote : c = '"'
  · subst hquote
    rw [Cursor.blanked, Zone.blanked_string_quote]
    exact .failed
  · have hkeeps : Cursor.Keeps .string ⟨c :: rest, position⟩ ⟨rest, position.after c⟩ :=
      ⟨[c], rfl, Zone.blanked_string_cons hquote hbackslash, rfl⟩
    have hagrees : Reply.Agrees .string .token ⟨c :: rest, position⟩
        (.matched ⟨rest, position.after c⟩ [] attempts)
        (.matched ⟨Zone.string.blanked rest, position.after c⟩ [] attempts') :=
      @Reply.Agrees.matched _ _ _ ⟨rest, position.after c⟩ _ _ _ fun _ => hkeeps
    rw [Cursor.blanked, Zone.blanked_string_cons hquote hbackslash]
    simpa [Pattern.stringItem, Pattern.read, Pattern.text, Pattern.between, Cursor.word?,
      Cursor.take?, hquote, hbackslash] using hagrees

/-- The contents of a string are read alike. -/
theorem agrees_stringContent (hle : depth ≤ depth') (attempts attempts' : Attempts) :
    (read depth .stringContent mode cursor attempts).Agrees .string mode cursor
      (read depth' .stringContent mode (cursor.blanked .string) attempts') := by
  obtain _ | depth := depth
  · exact .exhausted
  obtain _ | depth' := depth'
  · contradiction
  have htoken : mode.inside Rule.stringContent.definition.mode = .token := by
    cases mode <;> rfl
  refine agrees_read_succ attempts attempts' ?_
  rw [htoken]
  exact Pattern.agrees_many (Nat.le_of_succ_le_succ hle) (agrees_stringItem ..) agrees_stringItem

/-- A string is read alike. -/
theorem agrees_string (hle : depth ≤ depth') (attempts attempts' : Attempts) :
    (Rule.string.definition.body.read (read depth) depth .tight cursor attempts).Agrees .code .tight
      cursor (Rule.string.definition.body.read (read depth') depth' .tight (cursor.blanked .code)
        attempts') := by
  have hmark : ("\"" : String).toList = ['"'] := rfl
  simp only [definition, Pattern.inOrder, Pattern.text, Pattern.read, Pattern.between, hmark,
    Cursor.word?_quote_code]
  cases cursor.word? ['"'] with
  | none => exact .failed
  | some next =>
    dsimp only [Option.map_some]
    have hcontent := @agrees_stringContent .tight _ _ next hle attempts attempts'
    generalize read depth .stringContent .tight next attempts = reply,
      read depth' .stringContent .tight (next.blanked .string) attempts' = reply' at hcontent ⊢
    cases hcontent with
    | @matched last =>
      dsimp only
      rw [Cursor.word?_quote_string]
      cases last.word? ['"'] with
      | none => exact .failed
      | some last => exact .matched (absurd · (by decide))
    | failed => exact .failed
    | exhausted => exact .exhausted

/-- However deep the readers may go, all rules that may be read in code are read alike. -/
theorem agrees_read (hle : depth ≤ depth') : RuleReader.Agrees (read depth) (read depth') := by
  induction depth generalizing depth' with
  | zero => exact fun _ _ _ _ _ _ _ _ => .exhausted
  | succ depth ih =>
    obtain _ | depth' := depth'
    · contradiction
    have hle := Nat.le_of_succ_le_succ hle
    intro name mode cursor hcontent hsettled hmode attempts attempts'
    refine agrees_read_succ attempts attempts' ?_
    have hinside : mode.inside name.definition.mode = name.definition.mode := by
      rcases hmode with rfl | ⟨rfl, hmode⟩
      · rfl
      · exact hmode.symm
    rw [hinside]
    by_cases hstring : name = .string
    · subst hstring
      exact agrees_string hle attempts attempts'
    · exact Pattern.agrees_read (ih hle) hle (isBlind_body hstring hcontent) (fun _ => hsettled)
        attempts attempts'

/-- A program is read alike in a text and in the text without comments. -/
theorem agrees_readText_program (source : String) :
    (Rule.program.readText source).Agrees .code .spaced (.ofText source)
      (Rule.program.readText (withoutComments source)) := by
  have hcursor : Cursor.ofText (withoutComments source) = (Cursor.ofText source).blanked .code := by
    simp [Cursor.ofText, Cursor.blanked, withoutComments]
  have hlength : source.length ≤ (withoutComments source).length := by
    rw [withoutComments, String.length_ofList, ← String.length_toList]
    exact Zone.code.length_le_length_blanked source.toList
  have hdepth (length : Nat) :
      depthPerCharacter * (length + 2) = depthPerCharacter * length + 199 + 1 := by
    simp only [depthPerCharacter]
    omega
  have hle : depthPerCharacter * source.length + 199 ≤
      depthPerCharacter * (withoutComments source).length + 199 :=
    Nat.add_le_add_right (Nat.mul_le_mul_left _ hlength) _
  unfold readText
  rw [hcursor, hdepth, hdepth]
  exact agrees_read_succ _ _ (Pattern.agrees_read (agrees_read hle) hle isBlind_program
    (absurd · Bool.false_ne_true) _ _)

end Rule

end Kestrel
