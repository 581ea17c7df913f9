import Kestrel.Interactive.Dialog
import Kestrel.Proofs.Grammar.Blanking
import Mathlib.Algebra.Group.Nat.Defs

/-!
# Brackets in accepted texts

The grammar opens and closes brackets in pairs, and lets none of them, nor a quotation mark, stand
anywhere else outside of strings and comments. So the dialog finds a text complete that is a program
and has no comments.
-/

namespace Kestrel

/-- The characters that open brackets. -/
def openingBrackets : List Char := ['\x7b', '[', '(']

/-- The characters that close brackets. -/
def closingBrackets : List Char := ['\x7d', ']', ')']

/-- By how much a character changes the number of open brackets. -/
def bracketStep (c : Char) : Int32 :=
  if c ∈ openingBrackets then 1 else if c ∈ closingBrackets then -1 else 0

@[simp] theorem bracketStep_slash : bracketStep '/' = 0 := rfl

@[simp] theorem bracketStep_star : bracketStep '*' = 0 := rfl

/-- What is no bracket neither opens nor closes one. -/
theorem bracketStep_eq_zero {c : Char} (hnone : c ∉ openingBrackets ++ closingBrackets) :
    bracketStep c = 0 := by
  rw [List.mem_append, not_or] at hnone
  rw [bracketStep, if_neg hnone.1, if_neg hnone.2]

/-- By how much the characters of a text change the number of open brackets. -/
def bracketSum : List Char → Int32
  | [] => 0
  | c :: text => bracketStep c + bracketSum text

/-- Brackets are opened and closed as often as there are such characters. -/
theorem bracketSum_eq (text : List Char) :
    bracketSum text =
      Int32.ofInt (text.countP (· ∈ openingBrackets) - text.countP (· ∈ closingBrackets)) := by
  have hapart : ∀ c ∈ openingBrackets, c ∉ closingBrackets := by
    simp [openingBrackets, closingBrackets]
  induction text with
  | nil => rfl
  | cons c text ih =>
    rw [bracketSum, ih, bracketStep, List.countP_cons, List.countP_cons]
    by_cases hopening : c ∈ openingBrackets
    · have hone : (1 : Int32) = Int32.ofInt 1 := rfl
      rw [if_pos hopening, hone, ← Int32.ofInt_add]
      simp only [hopening, hapart c hopening, decide_true, decide_false, if_true,
        Bool.false_eq_true, if_false]
      congr 1
      omega
    · by_cases hclosing : c ∈ closingBrackets
      · have hone : (-1 : Int32) = Int32.ofInt (-1) := rfl
        rw [if_neg hopening, if_pos hclosing, hone, ← Int32.ofInt_add]
        simp only [hopening, hclosing, decide_true, decide_false, if_true,
          Bool.false_eq_true, if_false]
        congr 1
        omega
      · rw [if_neg hopening, if_neg hclosing, Int32.zero_add]
        simp [hopening, hclosing]

/-- In a text that is no longer than the count can tell, the sum is positive exactly if more
brackets are opened than closed. -/
theorem bracketSum_nonpos_iff {text : List Char} (hlength : text.length < 2 ^ 31) :
    bracketSum text ≤ 0 ↔
      text.countP (· ∈ openingBrackets) ≤ text.countP (· ∈ closingBrackets) := by
  have hopened := text.countP_le_length (p := (· ∈ openingBrackets))
  have hclosed := text.countP_le_length (p := (· ∈ closingBrackets))
  rw [bracketSum_eq, Int32.le_iff_toInt_le, Int32.toInt_ofInt_of_le (by omega) (by omega),
    Int32.toInt_zero]
  omega

namespace Dialog

variable {c : Char} {depth : Int32} {rest : List Char}

/-- A character of code counts as the bracket that it is. -/
theorem closes_code_cons (hquote : c ≠ '"') (hline : ¬(c = '/' ∧ rest.head? = some '/')) :
    closes .code depth (c :: rest) = closes .code (depth + bracketStep c) rest := by
  rw [closes, if_neg hquote]
  simp only [bracketStep, openingBrackets, closingBrackets, List.mem_cons, List.not_mem_nil,
    or_false]
  split
  · rfl
  · split
    · rw [Int32.sub_eq_add_neg]
    · rw [Int32.add_zero]

/-- A quotation mark in code opens a text. -/
theorem closes_code_quote : closes .code depth ('"' :: rest) = closes .string depth rest := by
  simp [closes]

/-- White space in code makes no difference. -/
theorem closes_code_blank (hblank : isBlank c) :
    closes .code depth (c :: rest) = closes .code depth rest := by
  have hstep : c ≠ '"' ∧ c ≠ '/' ∧ bracketStep c = 0 := by
    simp only [isBlank, Bool.or_eq_true, beq_iff_eq] at hblank
    rcases hblank with ((rfl | rfl) | rfl) | rfl <;>
      exact ⟨by decide, by decide, bracketStep_eq_zero (by decide)⟩
  rw [closes_code_cons hstep.1 fun h => hstep.2.1 h.1, hstep.2.2, Int32.add_zero]

/-- A quotation mark in a text closes it. -/
theorem closes_string_quote : closes .string depth ('"' :: rest) = closes .code depth rest := by
  simp [closes]

/-- What is escaped in a text makes no difference. -/
theorem closes_string_escape :
    closes .string depth ('\\' :: c :: rest) = closes .string depth rest := by
  simp [closes]

/-- A character in a text makes no difference if it neither closes the text nor escapes. -/
theorem closes_string_cons (hquote : c ≠ '"') (hbackslash : c ≠ '\\') :
    closes .string depth (c :: rest) = closes .string depth rest := by
  simp [closes, hquote, hbackslash]

end Dialog

namespace Pattern

/-- By how much reading a pattern changes the number of open brackets, provided that no rule in it
changes it. -/
def bracketChange : Pattern → Int32
  | .word letters => bracketSum letters
  | .seq first second => first.bracketChange + second.bracketChange
  | .alt first _ => first.bracketChange
  | _ => 0

/-- Whether it does not depend on what is read by how much the number of open brackets changes. -/
def isSteady : Pattern → Bool
  | .range low high =>
    (openingBrackets ++ closingBrackets).all fun c => !(low ≤ c && c ≤ high)
  | .seq first second => first.isSteady && second.isSteady
  | .alt first second =>
    first.isSteady && second.isSteady && first.bracketChange == second.bracketChange
  | .opt body | .many body => body.isSteady && body.bracketChange == 0
  | .anything => false
  | .start | .finish | .word _ | .absent _ | .rule _ => true

end Pattern

/-- Every rule but those of a string closes the brackets that it opens. -/
theorem Rule.isSteady_body {rule : Rule} (hstring : rule ≠ .string)
    (hcontent : rule ≠ .stringContent) :
    rule.definition.body.isSteady ∧ rule.definition.body.bracketChange = 0 := by
  cases rule <;> first | contradiction | decide +kernel

namespace Cursor

open Dialog

variable {cursor next : Cursor} {test : Char → Bool} {letters : List Char} {settled : Bool}
  {depth : Int32}

/-- Whether the text at a cursor in code is complete without its comments. -/
def closes (cursor : Cursor) (depth : Int32) : Bool :=
  Dialog.closes .code depth (Zone.code.blanked cursor.rest)

/-- A gap neither opens nor closes anything. -/
theorem closes_skipGap (cursor : Cursor) (depth : Int32) :
    cursor.skipGap.closes depth = cursor.closes depth :=
  (GapState.value_skip (fun rest _ => Dialog.closes .code depth rest)
    (fun _ _ _ => closes_code_blank) .outside GapState.closes_outside).symm

/-- A gap between tokens makes no difference. -/
theorem closes_between (mode : Mode) (cursor : Cursor) (depth : Int32) :
    (Pattern.between mode cursor).closes depth = cursor.closes depth := by
  cases mode with
  | spaced => exact cursor.closes_skipGap depth
  | tight | token => rfl

/-- A character that a blind test asks for counts as the bracket that it is. -/
theorem closes_of_take? (hblind : isBlindTest settled test) (hstart : settled → cursor.Settled)
    (htaken : cursor.take? test = some next) :
    ∃ c, test c ∧ cursor.rest = c :: next.rest ∧
      ∀ depth, cursor.closes depth = next.closes (depth + bracketStep c) := by
  simp only [isBlindTest, Bool.and_eq_true, Bool.not_eq_true', Bool.or_eq_true] at hblind
  obtain ⟨⟨-, hquote⟩, hslash⟩ := hblind
  obtain ⟨c, rest, hrest, hc, rfl⟩ := take?_eq_some_iff.mp htaken
  have hcode : c ≠ '"' := by
    rintro rfl
    simp [hquote] at hc
  have hplain : opensComment (c :: rest) = false := by
    by_cases h : c = '/'
    · subst h
      have hsettled : settled = true := hslash.resolve_right (by simp [hc])
      exact hrest ▸ hstart hsettled
    · exact opensComment_of_ne h
  refine ⟨c, hc, hrest, fun depth => ?_⟩
  rw [closes, hrest, Zone.blanked_code_cons hplain, if_neg hcode, closes_code_cons hcode]
  · rfl
  · rintro ⟨rfl, hnext⟩
    have hnext := Zone.head?_of_head?_blanked rfl hnext
    exact absurd (opensComment_cons.mpr ⟨rfl, .inl hnext⟩) (Bool.eq_false_iff.mp hplain)

/-- A blind word counts as the brackets in it. -/
theorem closes_of_word? (hblind : Pattern.isBlindWord settled letters)
    (hstart : settled → cursor.Settled) (hfound : cursor.word? letters = some next)
    (depth : Int32) :
    cursor.closes depth = next.closes (depth + bracketSum letters) := by
  induction letters generalizing cursor settled depth with
  | nil =>
    cases hfound
    rw [bracketSum, Int32.add_zero]
  | cons c letters ih =>
    simp only [Pattern.isBlindWord, Bool.and_eq_true] at hblind
    unfold word? at hfound
    split at hfound
    · contradiction
    · rename_i between htake
      obtain ⟨c', hc, -, hfirst⟩ := closes_of_take? hblind.1 hstart htake
      obtain rfl := eq_of_beq hc
      rw [hfirst, ih hblind.2 (absurd · Bool.false_ne_true) hfound, bracketSum, Int32.add_assoc]

end Cursor

/-- The contents of a string neither open nor close anything. -/
theorem Contents.closes {raw : List Char} (hcontents : Contents raw) (rest : List Char)
    (depth : Int32) : Dialog.closes .string depth (Zone.string.blanked (raw ++ rest)) =
      Dialog.closes .string depth (Zone.string.blanked rest) := by
  induction hcontents with
  | nil => rfl
  | escape mark _ ih =>
    rw [List.cons_append, List.cons_append, Zone.blanked_string_escape,
      Dialog.closes_string_escape, ih]
  | plain hnoQuote hnoBackslash _ ih =>
    rw [List.cons_append, Zone.blanked_string_cons hnoQuote hnoBackslash,
      Dialog.closes_string_cons hnoQuote hnoBackslash, ih]

/-- What a string takes neither opens nor closes anything outside of it. -/
theorem Matches.closes_string {cursor next : Cursor} {nodes : List Node}
    (hfound : Matches .tight Rule.string.definition.body cursor nodes next) (depth : Int32) :
    cursor.closes depth = next.closes depth := by
  obtain ⟨_, first, _, hopen, hothers⟩ := hfound.seq_inv
  obtain ⟨_, last, _, hcontent, hclose⟩ := hothers.seq_inv
  obtain ⟨_, hitems⟩ := hcontent.rule_inv (by decide)
  have hfirst : cursor.rest = '"' :: first.rest := Cursor.rest_of_word? hopen.word_inv
  have hlast : last.rest = '"' :: next.rest := Cursor.rest_of_word? hclose.word_inv
  have hinside : Dialog.closes .string depth (Zone.string.blanked first.rest) =
      Dialog.closes .string depth (Zone.string.blanked last.rest) := by
    obtain ⟨raw, hraw, hrest⟩ := hitems.stringContent_inv rfl rfl
    replace hrest : first.rest = raw ++ last.rest := hrest
    rw [hrest, hraw.closes]
  rw [Cursor.closes, hfirst, Zone.blanked_code_cons (opensComment_of_ne (by decide)), if_pos rfl,
    Dialog.closes_code_quote, hinside, hlast, Zone.blanked_string_quote,
    Dialog.closes_string_quote]
  rfl

/-- What a blind and steady pattern takes changes the number of open brackets as the pattern
says. -/
theorem Matches.closes {mode : Mode} {pattern : Pattern} {cursor next : Cursor} {nodes : List Node}
    (hfound : Matches mode pattern cursor nodes next) {settled : Bool}
    (hblind : pattern.isBlind mode settled) (hsteady : pattern.isSteady)
    (hstart : settled → cursor.Settled) (depth : Int32) :
    cursor.closes depth = next.closes (depth + pattern.bracketChange) := by
  induction hfound generalizing settled depth with
  | start | finish | absent | optNone | manyNone => simp [Pattern.bracketChange]
  | word hfound => exact Cursor.closes_of_word? hblind hstart hfound depth
  | @range _ low high _ _ htaken =>
    obtain ⟨c, hc, -, hcloses⟩ := Cursor.closes_of_take? hblind hstart htaken
    have hzero : bracketStep c = 0 := by
      refine bracketStep_eq_zero fun hmember => ?_
      have houtside' := List.all_eq_true.mp hsteady c hmember
      rw [hc] at houtside'
      contradiction
    rw [hcloses, hzero]
    rfl
  | anything => contradiction
  | @token name _ _ _ hinside ih =>
    simp only [Pattern.isBlind, Bool.and_eq_true, Bool.or_eq_true, bne_iff_ne, beq_iff_eq] at hblind
    obtain ⟨⟨hsettled, hcontent⟩, hmode⟩ := hblind
    replace hmode : name.definition.mode = .token := by simpa using hmode
    have hstring : name ≠ .string := by
      rintro rfl
      contradiction
    obtain ⟨hsteady', hchange⟩ := Rule.isSteady_body hstring hcontent
    rw [ih (hmode ▸ Rule.isBlind_body hstring hcontent) hsteady' fun _ => hstart hsettled, hchange]
    rfl
  | @node mode name _ _ _ houtside hinside ih =>
    simp only [Pattern.isBlind, Bool.and_eq_true, Bool.or_eq_true, bne_iff_ne, beq_iff_eq] at hblind
    obtain ⟨⟨hsettled, hcontent⟩, -⟩ := hblind
    by_cases hstring : name = .string
    · subst hstring
      rw [Matches.closes_string hinside]
      simp [Pattern.bracketChange]
    · obtain ⟨hsteady', hchange⟩ := Rule.isSteady_body hstring hcontent
      rw [ih (Rule.isBlind_body hstring hcontent) hsteady' fun _ => hstart hsettled, hchange]
      rfl
  | seq hfront hback ihFront ihBack =>
    simp only [Pattern.isBlind, Bool.and_eq_true] at hblind
    simp only [Pattern.isSteady, Bool.and_eq_true] at hsteady
    rw [ihFront hblind.1 hsteady.1 hstart, ← Cursor.closes_between, ihBack hblind.2 hsteady.2
      fun hspaced => Pattern.settled_between hspaced _, Pattern.bracketChange, Int32.add_assoc]
  | altFirst hinside ih =>
    simp only [Pattern.isBlind, Bool.and_eq_true] at hblind
    simp only [Pattern.isSteady, Bool.and_eq_true] at hsteady
    exact ih hblind.1 hsteady.1.1 hstart depth
  | altSecond hinside ih =>
    simp only [Pattern.isBlind, Bool.and_eq_true] at hblind
    simp only [Pattern.isSteady, Bool.and_eq_true, beq_iff_eq] at hsteady
    rw [Pattern.bracketChange, hsteady.2]
    exact ih hblind.2 hsteady.1.2 hstart depth
  | optSome hinside ih =>
    simp only [Pattern.isSteady, Bool.and_eq_true, beq_iff_eq] at hsteady
    rw [ih hblind hsteady.1 hstart, hsteady.2]
    rfl
  | manyFirst hinside ih =>
    simp only [Pattern.isBlind, Bool.and_eq_true] at hblind
    simp only [Pattern.isSteady, Bool.and_eq_true, beq_iff_eq] at hsteady
    rw [ih hblind.1 hsteady.1 hstart, hsteady.2]
    rfl
  | manyNext hsofar hround ihSofar ihRound =>
    rw [ihSofar hblind hsteady hstart, ← Cursor.closes_between]
    simp only [Pattern.isBlind, Bool.and_eq_true] at hblind
    simp only [Pattern.isSteady, Bool.and_eq_true, beq_iff_eq] at hsteady
    rw [ihRound hblind.2 hsteady.1 fun hspaced => Pattern.settled_between hspaced _, hsteady.2,
      Int32.add_zero]

/-- A program leaves nothing open, wherever its comments are overwritten. -/
theorem closes_of_accepted {source : String} {next : Cursor} {nodes : List Node}
    (hfound : Matches .spaced (.rule .program) (.ofText source) nodes next) (depth : Int32) :
    Dialog.closes .code depth (withoutComments source).toList = decide (depth ≤ 0) := by
  obtain ⟨_, hinside⟩ := hfound.rule_inv (by decide)
  obtain ⟨hsteady, hchange⟩ := @Rule.isSteady_body .program (by decide) (by decide)
  have hcloses := hinside.closes Rule.isBlind_program hsteady (absurd · Bool.false_ne_true) depth
  obtain ⟨_, _, _, -, hothers⟩ := hinside.seq_inv
  obtain ⟨_, _, _, -, hend⟩ := hothers.seq_inv
  obtain ⟨_, hfinish⟩ := hend.rule_inv (by decide)
  have hrest : next.rest = [] := hfinish.finish_inv
  rw [hchange, Int32.add_zero, Cursor.closes, Cursor.closes, hrest, Zone.blanked_nil,
    Dialog.closes] at hcloses
  rw [withoutComments, String.toList_ofList]
  exact hcloses

end Kestrel
