import Kestrel.Proofs.Interactive.Brackets
import Kestrel.Proofs.Syntax.Comment

/-!
# When the dialog waits for more

The dialog skips what stands in a line comment, but not what stands in a block comment: brackets
there count, and a quotation mark or two slashes hide what comes after them. So it may wait for more
of a program that is complete. It does not for a program without comments, nor for one with block
comments that hide nothing and open no bracket for good.
-/

namespace Kestrel

namespace Dialog

/-- By how much the characters in block comments change the number of open brackets. -/
def blockChange (scan : List (Zone × Char)) : Int32 :=
  bracketSum ((scan.filter (·.1 = .block)).map Prod.snd)

/-- Block comments in which nothing hides what comes after: there is no quotation mark in them, and
no slash that another slash follows. -/
structure Quiet (scan : List (Zone × Char)) : Prop where
  quote : (Zone.block, '"') ∉ scan
  slash : ∀ zone, ¬[(Zone.block, '/'), (zone, '/')] <:+: scan

/-- How the dialog reads on in a zone. It knows no block comments. -/
def stateOf : Zone → InputState
  | .code | .block => .code
  | .string => .string
  | .line => .comment

/-- How the dialog reads on in a zone that is left without its comment. -/
def bareStateOf : Zone → InputState
  | .string => .string
  | .code | .line | .block => .code

variable {zone : Zone} {c : Char} {scan : List (Zone × Char)}

/-- Nothing is hidden in what follows if nothing is hidden in all. -/
theorem Quiet.tail {first : Zone × Char} (hquiet : Quiet (first :: scan)) : Quiet scan where
  quote := fun hmember => hquiet.quote (List.mem_cons_of_mem _ hmember)
  slash := fun zone hsub =>
    hquiet.slash zone (hsub.trans (List.suffix_cons first scan).isInfix)

@[simp] theorem blockChange_cons (first : Zone × Char) :
    blockChange (first :: scan) =
      (if first.1 = .block then bracketStep first.2 else 0) + blockChange scan := by
  unfold blockChange
  by_cases h : first.1 = .block <;> simp [h, bracketSum]

/-- What a comment is overwritten with makes no difference. -/
theorem closes_overwritten (c : Char) (depth : Int32) (rest : List Char) :
    closes .code depth (overwritten c ++ rest) = closes .code depth rest :=
  GapState.value_overwritten (fun rest _ => closes .code depth rest)
    (fun _ _ _ => closes_code_blank) c rest .origin

/-- A character of a quiet block comment hides nothing. -/
theorem Quiet.hides_nothing {rest : List Char}
    (hquiet : Quiet ((Zone.block, c) :: zone.scan rest)) :
    c ≠ '"' ∧ ¬(c = '/' ∧ rest.head? = some '/') := by
  constructor
  · rintro rfl
    exact hquiet.quote (List.mem_cons_self ..)
  · rintro ⟨rfl, hnext⟩
    obtain ⟨others, rfl⟩ := List.head?_eq_some_iff.mp hnext
    obtain ⟨⟨next, _⟩, more, hscan, rfl, -⟩ :=
      List.map_eq_cons_iff.mp (zone.map_snd_scan ('/' :: others))
    refine hquiet.slash next ⟨[], more, ?_⟩
    rw [hscan]
    rfl

/-- The dialog takes a text for the text without comments, but for the brackets in quiet block
comments. -/
theorem closes_scan (zone : Zone) (text : List Char) (hquiet : Quiet (zone.scan text))
    (depth : Int32) :
    closes (stateOf zone) depth text =
      closes (bareStateOf zone) (depth + blockChange (zone.scan text)) (zone.blanked text) := by
  fun_induction zone.scan text generalizing depth with
  | case1 zone => cases zone <;> simp [blockChange, bracketSum, closes, stateOf, bareStateOf]
  | case2 rest ih =>
    have hleft : closes .code depth ('/' :: '/' :: rest) = closes .comment depth rest := by
      simp [closes]
    rw [Zone.blanked_code_line, stateOf, bareStateOf, hleft, closes_code_blank rfl,
      closes_code_blank rfl]
    simpa [stateOf, bareStateOf] using ih hquiet.tail.tail depth
  | case3 rest hclosed ih =>
    rw [Zone.blanked_code_block hclosed, stateOf, bareStateOf,
      closes_code_cons (by decide) (by simp),
      closes_code_cons (by decide) hquiet.tail.hides_nothing.2, closes_code_blank rfl,
      closes_code_blank rfl]
    simpa [stateOf, bareStateOf] using ih hquiet.tail.tail depth
  | case4 rest hopen ih =>
    have hplain : opensComment ('/' :: '*' :: rest) = false := by simpa [opensComment] using hopen
    rw [Zone.blanked_code_cons hplain, if_neg (by decide),
      Zone.blanked_code_cons (opensComment_of_ne (by decide)), if_neg (by decide), stateOf,
      bareStateOf, closes_code_cons (by decide) (by simp), closes_code_cons (by decide) (by simp),
      closes_code_cons (by decide) (by simp), closes_code_cons (by decide) (by simp)]
    simpa [stateOf, bareStateOf] using ih hquiet.tail.tail depth
  | case5 rest _ _ ih =>
    rw [Zone.blanked_code_cons (opensComment_of_ne (by decide)), if_pos rfl, stateOf, bareStateOf,
      closes_code_quote, closes_code_quote]
    simpa [stateOf, bareStateOf] using ih hquiet.tail depth
  | case6 c rest hline hblock hquote ih =>
    have hnext : ¬(c = '/' ∧ rest.head? = some '/') := by
      rintro ⟨rfl, hnext⟩
      obtain ⟨others, rfl⟩ := List.head?_eq_some_iff.mp hnext
      exact hline _ rfl rfl
    rw [Zone.blanked_code_cons (opensComment_of_no_mark hline hblock), if_neg hquote, stateOf,
      bareStateOf, closes_code_cons hquote hnext, closes_code_cons hquote]
    · have hrest := ih hquiet.tail (depth + bracketStep c)
      rw [Int32.add_assoc, Int32.add_comm (bracketStep c), ← Int32.add_assoc] at hrest
      simpa [stateOf, bareStateOf] using hrest
    · rintro ⟨rfl, hslash⟩
      exact hnext ⟨rfl, Zone.head?_of_head?_blanked rfl hslash⟩
  | case7 c rest ih =>
    rw [Zone.blanked_string_escape, stateOf, bareStateOf, closes_string_escape,
      closes_string_escape]
    simpa [stateOf, bareStateOf] using ih hquiet.tail.tail depth
  | case8 c rest hescape ihCode ihString =>
    by_cases hquote : c = '"'
    · subst hquote
      rw [Zone.blanked_string_quote, stateOf, bareStateOf, closes_string_quote,
        closes_string_quote]
      simpa [stateOf, bareStateOf] using ihCode (by simpa using hquiet.tail) depth
    · by_cases hbackslash : c = '\\'
      · subst hbackslash
        obtain rfl : rest = [] := by
          cases rest with
          | nil => rfl
          | cons next others => exact (hescape next others rfl rfl).elim
        simp [Zone.blanked_string_backslash, closes, stateOf, bareStateOf]
      · rw [Zone.blanked_string_cons hquote hbackslash, stateOf, bareStateOf,
          closes_string_cons hquote hbackslash, closes_string_cons hquote hbackslash]
        have hrest := ihString (by simpa [hquote] using hquiet.tail) depth
        simpa [stateOf, bareStateOf, hquote] using hrest
  | case9 rest ih =>
    have hleft : closes .comment depth ('\n' :: rest) = closes .code depth rest := by
      simp [closes]
    rw [Zone.blanked_line_cons, if_pos rfl, stateOf, bareStateOf, hleft, closes_code_blank rfl]
    simpa [stateOf, bareStateOf] using ih hquiet.tail depth
  | case10 c rest hc ih =>
    have hleft : closes .comment depth (c :: rest) = closes .comment depth rest := by
      simp [closes, hc]
    rw [Zone.blanked_line_cons, if_neg hc, stateOf, bareStateOf, hleft, closes_overwritten]
    simpa [stateOf, bareStateOf] using ih hquiet.tail depth
  | case11 rest ih =>
    rw [Zone.blanked_block_close, stateOf, bareStateOf, closes_code_cons (by decide) (by simp),
      closes_code_cons (by decide) hquiet.tail.hides_nothing.2, closes_code_blank rfl,
      closes_code_blank rfl]
    simpa [stateOf, bareStateOf] using ih hquiet.tail.tail depth
  | case12 c rest hinside ih =>
    obtain ⟨hquote, hslash⟩ := hquiet.hides_nothing
    rw [Zone.blanked_block_cons fun others h => hinside others h.1 h.2, stateOf, bareStateOf,
      closes_overwritten, closes_code_cons hquote hslash]
    simpa [stateOf, bareStateOf, Int32.add_assoc] using ih hquiet.tail (depth + bracketStep c)

end Dialog

/-- The characters of the block comments of a source text, with their marks. -/
def blockComments (source : String) : List Char :=
  ((Zone.code.scan source.toList).filter (·.1 = .block)).map Prod.snd

/-- An accepted program matches as a whole. -/
theorem matches_of_accepted {source : String} {sourceFile : Option String} {program : Program}
    (hparsed : parseProgram source sourceFile = .ok program) :
    ∃ nodes next, Matches .spaced (.rule .program) (.ofText source) nodes next := by
  have hfound := Rule.program.matches_readText source
  unfold parseProgram readPart at hparsed
  generalize Rule.program.readText source = reply at hfound hparsed
  cases reply with
  | matched next nodes attempts => exact ⟨nodes, next, hfound⟩
  | failed | exhausted => contradiction

/-- The dialog never waits for more of a program without comments. Of a program with block comments
that hide nothing it waits for more exactly if more brackets are opened in them than closed. Their
number is counted in 32 bits, and so comes out right in comments of fewer than `2 ^ 31` characters.
-/
theorem isComplete_of_accepted {source : String} {sourceFile : Option String} {program : Program}
    (hparsed : parseProgram source sourceFile = .ok program) :
    Dialog.isComplete (withoutComments source) ∧
      (Dialog.Quiet (Zone.code.scan source.toList) →
        let opened := (blockComments source).countP (· ∈ openingBrackets)
        let closed := (blockComments source).countP (· ∈ closingBrackets)
        (Dialog.isComplete source ↔ Int32.ofInt (opened - closed) ≤ 0) ∧
          ((blockComments source).length < 2 ^ 31 →
            (Dialog.isComplete source ↔ opened ≤ closed))) := by
  obtain ⟨nodes, next, hfound⟩ := matches_of_accepted hparsed
  constructor
  · rw [Dialog.isComplete, closes_of_accepted hfound]
    rfl
  · intro hquiet
    have hchange : Dialog.blockChange (Zone.code.scan source.toList) =
        bracketSum (blockComments source) := rfl
    have hclosed :=
      closes_of_accepted hfound (0 + Dialog.blockChange (Zone.code.scan source.toList))
    rw [withoutComments, String.toList_ofList] at hclosed
    have hcomplete : Dialog.isComplete source ↔ bracketSum (blockComments source) ≤ 0 := by
      rw [Dialog.isComplete, ← Dialog.stateOf, Dialog.closes_scan .code source.toList hquiet,
        Dialog.bareStateOf, hclosed, hchange, Int32.zero_add, decide_eq_true_iff]
    rw [bracketSum_eq] at hcomplete
    refine ⟨hcomplete, fun hlength => hcomplete.trans ?_⟩
    rw [← bracketSum_eq]
    exact bracketSum_nonpos_iff hlength

/-- Brackets in a string and in a line comment do not count, and in block comments only their
numbers do. With one more bracket opened the dialog waits. -/
theorem isComplete_of_brackets_in_comments :
    let closed := "f(\"(\") /* ([ */ // (\n/* )] */"
    let unclosed := "f(\"(\") /* ([ */ // )\n/* ) */"
    (∃ program, parseProgram closed none = .ok program ∧ Dialog.isComplete closed) ∧
      ∃ program, parseProgram unclosed none = .ok program ∧ ¬Dialog.isComplete unclosed := by
  intro closed unclosed
  obtain ⟨program, hclosed⟩ : ∃ program, parseProgram closed none = .ok program :=
    exists_of_isOk (by decide +kernel)
  obtain ⟨program', hunclosed⟩ : ∃ program, parseProgram unclosed none = .ok program :=
    exists_of_isOk (by decide +kernel)
  have hquiet : Dialog.Quiet (Zone.code.scan closed.toList) :=
    ⟨by decide +kernel, fun zone => by cases zone <;> decide +kernel⟩
  have hquiet' : Dialog.Quiet (Zone.code.scan unclosed.toList) :=
    ⟨by decide +kernel, fun zone => by cases zone <;> decide +kernel⟩
  refine ⟨⟨program, hclosed, ?_⟩, program', hunclosed, fun hcomplete => ?_⟩
  · obtain ⟨-, hcounted⟩ := (isComplete_of_accepted hclosed).2 hquiet
    exact (hcounted (by decide +kernel)).mpr (by decide +kernel)
  · obtain ⟨-, hcounted⟩ := (isComplete_of_accepted hunclosed).2 hquiet'
    exact absurd ((hcounted (by decide +kernel)).mp hcomplete) (by decide +kernel)

/-- A quotation mark in a block comment makes the dialog wait for the end of a string. -/
theorem not_isComplete_of_quote_in_comment :
    let source := "/* \" */ 42"
    (∃ program, parseProgram source none = .ok program) ∧ Dialog.isComplete source = false :=
  ⟨exists_of_isOk (by decide +kernel), by decide +kernel⟩

end Kestrel
