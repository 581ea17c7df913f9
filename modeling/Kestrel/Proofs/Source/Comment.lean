import Kestrel.Proofs.Source.Cursor

/-!
# Comments

A scan from left to right tells which characters of a text belong to string literals and to
comments. With every comment overwritten by blanks, what is left of the text stands where it stood,
and a gap ends where it ended.
-/

namespace Kestrel

/-- What a character of a text belongs to. -/
inductive Zone where
  | code
  /-- A string literal with its marks. -/
  | string
  /-- A comment from `//` up to the end of its line. -/
  | line
  /-- A comment from its opening mark up to the first closing mark after it. -/
  | block
  deriving DecidableEq, Repr

/-- Whether a block comment is closed somewhere in a text. -/
def closesBlock : List Char → Bool
  | [] => false
  | c :: rest => (c = '*' && rest.head? = some '/') || closesBlock rest

/-- Of two texts that start alike, a block comment closed in one is closed in the other, if so it is
in what follows. -/
theorem closesBlock_cons_of_imp {c : Char} {rest rest' : List Char}
    (hhead : rest.head? = some '/' → rest'.head? = some '/')
    (hrest : closesBlock rest → closesBlock rest') (h : closesBlock (c :: rest)) :
    closesBlock (c :: rest') := by
  simp only [closesBlock, Bool.or_eq_true, Bool.and_eq_true, decide_eq_true_eq] at h ⊢
  exact h.imp (And.imp_right hhead) hrest

/-- Whether a text starts with a comment. An opening mark that nothing closes opens none. -/
def opensComment : List Char → Bool
  | '/' :: '/' :: _ => true
  | '/' :: '*' :: rest => closesBlock rest
  | _ => false

/-- A comment is opened by a slash, and closed somewhere if it has to be. -/
theorem opensComment_cons {c : Char} {rest : List Char} : opensComment (c :: rest) ↔
    c = '/' ∧ (rest.head? = some '/' ∨ ∃ others, rest = '*' :: others ∧ closesBlock others) := by
  unfold opensComment
  split
  · rename_i htext
    cases htext
    simp
  · rename_i htext
    cases htext
    simp
  · rename_i hline hblock
    refine iff_of_false (by decide) ?_
    rintro ⟨rfl, hnext | ⟨others, rfl, _⟩⟩
    · obtain ⟨others, rfl⟩ := List.head?_eq_some_iff.mp hnext
      exact hline _ rfl
    · exact hblock _ rfl

/-- No comment is opened where neither of its two opening marks stands. -/
theorem opensComment_of_no_mark {c : Char} {rest : List Char}
    (hline : ∀ others, c = '/' → rest = '/' :: others → False)
    (hblock : ∀ others, c = '/' → rest = '*' :: others → False) :
    opensComment (c :: rest) = false := by
  refine Bool.eq_false_iff.mpr fun hopens => ?_
  obtain ⟨rfl, hnext | ⟨others, rfl, -⟩⟩ := opensComment_cons.mp hopens
  · obtain ⟨others, rfl⟩ := List.head?_eq_some_iff.mp hnext
    exact hline _ rfl rfl
  · exact hblock _ rfl rfl

/-- Only a slash opens a comment. -/
theorem opensComment_of_ne {c : Char} {rest : List Char} (hc : c ≠ '/') :
    opensComment (c :: rest) = false :=
  Bool.eq_false_iff.mpr fun h => hc (opensComment_cons.mp h).1

namespace Zone

/-- The characters of a text that starts in a zone, each with its own zone. -/
@[simp]
def scan : Zone → List Char → List (Zone × Char)
  | _, [] => []
  | .code, '/' :: '/' :: rest => (.line, '/') :: (.line, '/') :: scan .line rest
  | .code, '/' :: '*' :: rest =>
    if closesBlock rest then (.block, '/') :: (.block, '*') :: scan .block rest
    else (.code, '/') :: (.code, '*') :: scan .code rest
  | .code, c :: rest =>
    if c = '"' then (.string, c) :: scan .string rest else (.code, c) :: scan .code rest
  | .string, '\\' :: c :: rest => (.string, '\\') :: (.string, c) :: scan .string rest
  | .string, c :: rest =>
    (.string, c) :: if c = '"' then scan .code rest else scan .string rest
  | .line, c :: rest =>
    if c = '\n' then (.code, c) :: scan .code rest else (.line, c) :: scan .line rest
  | .block, '*' :: '/' :: rest => (.block, '*') :: (.block, '/') :: scan .code rest
  | .block, c :: rest => (.block, c) :: scan .block rest

end Zone

/-- Blanks in place of a character of a comment: as many as it has bytes. Line breaks are kept. -/
def overwritten (c : Char) : List Char :=
  if c = '\n' ∨ c = '\r' then [c] else List.replicate c.utf8Size ' '

@[simp] theorem overwritten_slash : overwritten '/' = [' '] := rfl

@[simp] theorem overwritten_star : overwritten '*' = [' '] := rfl

/-- Something stands in place of every character. -/
theorem overwritten_ne_nil (c : Char) : overwritten c ≠ [] := by
  have := c.utf8Size_pos
  unfold overwritten
  split
  · simp
  · simpa using by omega

/-- What stands in place of a character is blank. -/
theorem isBlank_of_mem_overwritten {c blank : Char} (hmember : blank ∈ overwritten c) :
    isBlank blank := by
  unfold overwritten at hmember
  split at hmember
  · rename_i h
    obtain rfl := List.mem_singleton.mp hmember
    rcases h with rfl | rfl <;> rfl
  · obtain rfl := List.eq_of_mem_replicate hmember
    rfl

/-- What comes after an overwritten character stays where it was. -/
theorem foldl_after_overwritten (position : Position) (c : Char) :
    (overwritten c).foldl Position.after position = position.after c := by
  unfold overwritten
  split
  · rfl
  · rename_i h
    have hbytes : (String.ofList (List.replicate c.utf8Size ' ')).utf8ByteSize = c.utf8Size := by
      induction c.utf8Size with
      | zero => rfl
      | succ size ih =>
        rw [List.replicate_succ, String.ofList_cons, String.utf8ByteSize_append, ih,
          String.utf8ByteSize_singleton]
        exact Nat.add_comm 1 size
    rw [Position.foldl_after, hbytes, List.count_replicate]
    simp_all [Position.after]

/-- What is left of a character in its zone. -/
def Zone.leave : Zone × Char → List Char
  | (.code, c) | (.string, c) => [c]
  | (.line, c) | (.block, c) => overwritten c

/-- A text that starts in a zone, with its comments overwritten. -/
def Zone.blanked (zone : Zone) (text : List Char) : List Char := (zone.scan text).flatMap leave

/-- A source text with every comment overwritten by blanks. -/
def withoutComments (source : String) : String := String.ofList (Zone.code.blanked source.toList)

namespace Zone

variable {zone : Zone} {c : Char} {rest text : List Char}

/-- The scan leaves out no character. -/
theorem map_snd_scan (zone : Zone) (text : List Char) : (zone.scan text).map Prod.snd = text := by
  fun_induction scan zone text with
  | case8 => split <;> simp_all
  | _ => simp_all

/-- Something is left of every character. -/
theorem leave_ne_nil (first : Zone × Char) : leave first ≠ [] := by
  obtain ⟨zone, c⟩ := first
  cases zone <;> simp [leave, overwritten_ne_nil]

/-- What is left of a character leads as far as the character does. -/
theorem foldl_after_leave (position : Position) (first : Zone × Char) :
    (leave first).foldl Position.after position = position.after first.2 := by
  obtain ⟨zone, c⟩ := first
  cases zone with
  | code | string => rfl
  | line | block => exact foldl_after_overwritten position c

/-- For every character there is at least one left. -/
theorem length_le_length_blanked (zone : Zone) (text : List Char) :
    text.length ≤ (zone.blanked text).length := by
  have hscan := zone.map_snd_scan text
  unfold blanked
  generalize zone.scan text = pairs at hscan
  subst hscan
  induction pairs with
  | nil => exact Nat.le_refl _
  | cons first pairs ih =>
    have := List.length_pos_iff.mpr (leave_ne_nil first)
    simp only [List.map_cons, List.length_cons, List.flatMap_cons, List.length_append]
    omega

/-- What is left of a text takes as many bytes and lines as the text. -/
theorem foldl_after_blanked (zone : Zone) (position : Position) (text : List Char) :
    (zone.blanked text).foldl Position.after position = text.foldl Position.after position := by
  have hscan := zone.map_snd_scan text
  unfold blanked
  generalize zone.scan text = pairs at hscan
  subst hscan
  induction pairs generalizing position with
  | nil => rfl
  | cons first pairs ih =>
    rw [List.flatMap_cons, List.foldl_append, foldl_after_leave, ih]
    rfl

@[simp] theorem blanked_nil (zone : Zone) : zone.blanked [] = [] := by
  cases zone <;> rfl

/-- Outside of comments a character is kept; a quotation mark opens a string. -/
theorem blanked_code_cons (hplain : opensComment (c :: rest) = false) :
    Zone.code.blanked (c :: rest) =
      c :: (if c = '"' then Zone.string else .code).blanked rest := by
  unfold blanked
  unfold opensComment at hplain
  split at hplain
  · contradiction
  · rename_i rest' htext
    cases htext
    have hstar : Zone.code.scan ('*' :: rest') = (.code, '*') :: Zone.code.scan rest' := by
      cases rest' <;> simp
    rw [scan, if_neg (by simp [hplain])]
    simp [leave, hstar]
  · rename_i hline hblock
    rw [scan]
    · split <;> simp [leave, *]
    · rintro rest rfl rfl
      exact hline _ rfl
    · rintro rest rfl rfl
      exact hblock _ rfl

/-- Where a comment starts, a blank is put. -/
theorem blanked_code_of_opens (hopens : opensComment text) :
    ∃ others, Zone.code.blanked text = ' ' :: others := by
  unfold opensComment at hopens
  split at hopens
  · exact ⟨_, by simp [blanked, leave]; rfl⟩
  · exact ⟨_, by simp [blanked, leave, hopens]; rfl⟩
  · contradiction

/-- Two slashes in code open a line comment. -/
theorem blanked_code_line :
    Zone.code.blanked ('/' :: '/' :: rest) = ' ' :: ' ' :: Zone.line.blanked rest := by
  simp [blanked, leave]

/-- A slash and an asterisk in code open a block comment if it is closed. -/
theorem blanked_code_block (hclosed : closesBlock rest) :
    Zone.code.blanked ('/' :: '*' :: rest) = ' ' :: ' ' :: Zone.block.blanked rest := by
  simp [blanked, leave, hclosed]

/-- A line comment ends with its line. -/
theorem blanked_line_cons (c : Char) (rest : List Char) :
    Zone.line.blanked (c :: rest) =
      if c = '\n' then c :: Zone.code.blanked rest
      else overwritten c ++ Zone.line.blanked rest := by
  unfold blanked
  rw [scan]
  split <;> simp [leave]

/-- An asterisk and a slash close a block comment. -/
theorem blanked_block_close :
    Zone.block.blanked ('*' :: '/' :: rest) = ' ' :: ' ' :: Zone.code.blanked rest := by
  simp [blanked, leave]

/-- All else in a block comment is overwritten. -/
theorem blanked_block_cons (hinside : ∀ others, ¬ (c = '*' ∧ rest = '/' :: others)) :
    Zone.block.blanked (c :: rest) = overwritten c ++ Zone.block.blanked rest := by
  unfold blanked
  rw [scan]
  · simp [leave]
  · rintro others rfl rfl
    exact hinside others ⟨rfl, rfl⟩

/-- A quotation mark in a text closes it. -/
theorem blanked_string_quote :
    Zone.string.blanked ('"' :: rest) = '"' :: Zone.code.blanked rest := by
  simp [blanked, leave]

/-- What is escaped in a text belongs to it. -/
theorem blanked_string_escape :
    Zone.string.blanked ('\\' :: c :: rest) = '\\' :: c :: Zone.string.blanked rest := by
  simp [blanked, leave]

/-- A backslash at the end stays. -/
theorem blanked_string_backslash : Zone.string.blanked ['\\'] = ['\\'] := by
  simp [blanked, leave]

/-- A character in a text stays if it neither closes the text nor escapes. -/
theorem blanked_string_cons (hquote : c ≠ '"') (hbackslash : c ≠ '\\') :
    Zone.string.blanked (c :: rest) = c :: Zone.string.blanked rest := by
  simp [blanked, leave, hquote, hbackslash]

/-- In a string nothing is overwritten. -/
theorem blanked_string_first (c : Char) (rest : List Char) :
    ∃ others, Zone.string.blanked (c :: rest) = c :: others := by
  by_cases hquote : c = '"'
  · subst hquote
    exact ⟨_, blanked_string_quote⟩
  by_cases hbackslash : c = '\\'
  · subst hbackslash
    cases rest with
    | nil => exact ⟨_, blanked_string_backslash⟩
    | cons => exact ⟨_, blanked_string_escape⟩
  · exact ⟨_, blanked_string_cons hquote hbackslash⟩

/-- The first character of a text is left or overwritten. -/
theorem blanked_cons (zone : Zone) (c : Char) (rest : List Char) :
    ∃ front others, zone.blanked (c :: rest) = front ++ others ∧
      (front = [c] ∨ front = overwritten c) := by
  obtain ⟨⟨first, _⟩, others, hscan, rfl, -⟩ :=
    List.map_eq_cons_iff.mp (zone.map_snd_scan (c :: rest))
  refine ⟨leave (first, _), others.flatMap leave, by rw [blanked, hscan, List.flatMap_cons], ?_⟩
  cases first <;> simp [leave]

@[simp] theorem blanked_eq_nil_iff : zone.blanked text = [] ↔ text = [] := by
  cases text with
  | nil => simp
  | cons c rest =>
    obtain ⟨front, others, hblanked, rfl | rfl⟩ := zone.blanked_cons c rest <;>
      simp [hblanked, overwritten_ne_nil]

/-- A character that is at the front, and no blank, was there. -/
theorem head?_of_head?_blanked (hblank : isBlank c = false)
    (h : (zone.blanked text).head? = some c) : text.head? = some c := by
  cases text with
  | nil => simp at h
  | cons first rest =>
    obtain ⟨front, others, hblanked, rfl | rfl⟩ := zone.blanked_cons first rest
    · simpa [hblanked] using h
    · obtain ⟨blank, blanks, hblanks⟩ := List.exists_cons_of_ne_nil (overwritten_ne_nil first)
      have hc : blank = c := by simpa [hblanked, hblanks] using h
      have hmem : c ∈ overwritten first := by simp [hblanks, hc]
      rw [isBlank_of_mem_overwritten hmem] at hblank
      contradiction

/-- What stands in place of a character closes no block comment. -/
theorem closesBlock_overwritten (c : Char) (rest : List Char) :
    closesBlock (overwritten c ++ rest) = closesBlock rest := by
  have hstars : ∀ blank ∈ overwritten c, blank ≠ '*' := by
    rintro _ hmem rfl
    exact absurd (isBlank_of_mem_overwritten hmem) (by decide)
  generalize overwritten c = blanks at hstars
  induction blanks with
  | nil => rfl
  | cons blank blanks ih =>
    simp only [List.forall_mem_cons] at hstars
    simp [closesBlock, hstars.1, ih hstars.2]

/-- Overwriting comments makes no closing mark. -/
theorem closesBlock_of_closesBlock_blanked (h : closesBlock (zone.blanked text)) :
    closesBlock text := by
  have hhead (zone : Zone) (rest : List Char) :
      ((scan zone rest).flatMap leave).head? = some '/' → rest.head? = some '/' :=
    head?_of_head?_blanked rfl
  unfold blanked at h
  fun_induction scan zone text with
  | case1 => exact h
  | case2 | case3 | case5 | case9 | case10 | case11 | case12 =>
    -- no star is kept, or one that no slash can follow
    simp_all [leave, closesBlock, closesBlock_overwritten]
  | case4 rest hopen ih =>
    exact closesBlock_cons_of_imp (by simp) (closesBlock_cons_of_imp (hhead _ _) ih) h
  | case6 c rest hline hblock hquote ih => exact closesBlock_cons_of_imp (hhead _ _) ih h
  | case7 c rest ih =>
    exact closesBlock_cons_of_imp (by simp) (closesBlock_cons_of_imp (hhead _ _) ih) h
  | case8 c rest hescape ihCode ihString =>
    refine closesBlock_cons_of_imp ?_ ?_ h
    · split <;> exact hhead _ _
    · split
      · exact ihCode
      · exact ihString

/-- No comment is left. -/
theorem opensComment_blanked (text : List Char) :
    opensComment (Zone.code.blanked text) = false := by
  cases hopens : opensComment text with
  | true =>
    obtain ⟨others, hblanked⟩ := blanked_code_of_opens hopens
    rw [hblanked]
    exact opensComment_of_ne (by decide)
  | false =>
    cases text with
    | nil => rfl
    | cons c rest =>
      rw [blanked_code_cons hopens]
      refine Bool.eq_false_iff.mpr fun hleft => ?_
      obtain ⟨rfl, hnext⟩ := opensComment_cons.mp hleft
      refine absurd (opensComment_cons.mpr ⟨rfl, ?_⟩) (Bool.eq_false_iff.mp hopens)
      rw [if_neg (by decide)] at hnext
      rcases hnext with hnext | ⟨others, hnext, hclosed⟩
      · exact .inl (head?_of_head?_blanked rfl hnext)
      · have hstar : rest.head? = some '*' := head?_of_head?_blanked rfl (by rw [hnext]; rfl)
        obtain ⟨rest, rfl⟩ := List.head?_eq_some_iff.mp hstar
        rw [blanked_code_cons (opensComment_of_ne (by decide))] at hnext
        obtain rfl := (List.cons.inj hnext).2
        exact .inr ⟨rest, rfl, closesBlock_of_closesBlock_blanked hclosed⟩

end Zone

/-- A cursor in a zone, with the comments after it overwritten. -/
def Cursor.blanked (cursor : Cursor) (zone : Zone) : Cursor :=
  ⟨zone.blanked cursor.rest, cursor.position⟩

/-- No comment starts at a cursor. -/
def Cursor.Settled (cursor : Cursor) : Prop := opensComment cursor.rest = false

namespace GapState

/-- The zone in which a gap is read on. -/
def zone : GapState → Zone
  | .outside => .code
  | .line => .line
  | .block _ => .block

/-- A block comment is closed somewhere. -/
def Closes (state : GapState) (rest : List Char) : Prop :=
  ∀ opened, state = .block opened → closesBlock rest

variable {rest : List Char} {position : Position}

/-- Outside of comments there is nothing to close. -/
theorem closes_outside : outside.Closes rest := by
  rintro _ ⟨⟩

/-- In a line comment there is nothing to close. -/
theorem closes_line : line.Closes rest := by
  rintro _ ⟨⟩

/-- A block comment that is not closed by what comes next is closed later. -/
theorem Closes.inside {opened : Cursor} {c : Char} (hcloses : (block opened).Closes (c :: rest))
    (hinside : ∀ others, c = '*' → rest = '/' :: others → False) : (block opened).Closes rest := by
  intro _ _
  have hclosed := hcloses _ rfl
  simp only [closesBlock, Bool.or_eq_true, Bool.and_eq_true, decide_eq_true_eq] at hclosed
  refine hclosed.resolve_left fun h => ?_
  obtain ⟨others, rfl⟩ := List.head?_eq_some_iff.mp h.2
  exact hinside others h.1 rfl

/-- In a block comment that nothing closes, the gap ends where the comment was opened. -/
theorem skip_block_of_not_closes (opened : Cursor) (hopen : closesBlock rest = false) :
    (GapState.block opened).skip rest position = opened := by
  generalize hstate : GapState.block opened = state
  fun_induction GapState.skip state rest position <;> simp_all [closesBlock]

/-- A blank is no part of what comes after a gap. -/
theorem skip_blank {c : Char} (hblank : isBlank c) :
    GapState.outside.skip (c :: rest) position = GapState.outside.skip rest (position.after c) := by
  have hslash : c ≠ '/' := by
    rintro rfl
    contradiction
  rw [skip]
  · rw [if_pos hblank]
  · exact fun _ h => absurd h hslash
  · exact fun _ h => absurd h hslash

/-- Where neither a blank nor a comment is, the gap ends. -/
theorem skip_of_not_opens {c : Char} (hblank : isBlank c = false)
    (hplain : opensComment (c :: rest) = false) :
    GapState.outside.skip (c :: rest) position = ⟨c :: rest, position⟩ := by
  cases hnext : c == '/' && rest.head? == some '*' with
  | true =>
    obtain ⟨rfl, hstar⟩ : c = '/' ∧ rest.head? = some '*' := by simpa using hnext
    obtain ⟨rest, rfl⟩ := List.head?_eq_some_iff.mp hstar
    exact skip_block_of_not_closes _ hplain
  | false =>
    rw [skip]
    · rw [if_neg (by simp [hblank])]
    · rintro rest rfl rfl
      contradiction
    · rintro rest rfl rfl
      contradiction

/-- After a gap comes neither a blank nor a comment. -/
theorem skip_stops (state : GapState) (hcloses : state.Closes rest) :
    (state.skip rest position).Settled ∧
      ∀ c ∈ (state.skip rest position).rest.head?, isBlank c = false := by
  fun_induction GapState.skip state rest position with
  | case1 | case6 => exact ⟨rfl, by simp⟩
  | case2 _ _ ih | case8 _ _ _ _ ih => exact ih closes_line
  | case4 _ _ _ _ _ _ ih | case7 _ _ ih | case10 _ _ _ ih => exact ih closes_outside
  | case3 rest position ih =>
    cases hclosed : closesBlock rest with
    | true => exact ih fun _ _ => hclosed
    | false =>
      rw [skip_block_of_not_closes _ hclosed]
      exact ⟨hclosed, by simp [isBlank]⟩
  | case5 c rest position hline hblock hblank =>
    exact ⟨opensComment_of_no_mark hline hblock, by simpa using hblank⟩
  | case9 => exact absurd (hcloses _ rfl) (by decide)
  | case11 opened c rest position hinside ih => exact ih (hcloses.inside hinside)

section Blanks

/- Whatever may be said of a text at a position and does not change when a blank is taken from its
front, is not changed by a gap, once comments are blanks. -/

variable {α : Type} (value : List Char → Position → α)
  (hblank : ∀ c rest position, isBlank c →
    value (c :: rest) position = value rest (position.after c))
include hblank

/-- Past what stands in place of a character, the value is the one behind the character. -/
theorem value_overwritten (c : Char) (rest : List Char) (position : Position) :
    value (overwritten c ++ rest) position = value rest (position.after c) := by
  have hblanks := fun blank (hmember : blank ∈ overwritten c) => isBlank_of_mem_overwritten hmember
  rw [← foldl_after_overwritten]
  generalize overwritten c = blanks at hblanks
  induction blanks generalizing position with
  | nil => rfl
  | cons first blanks ih =>
    obtain ⟨hfirst, hblanks⟩ := List.forall_mem_cons.mp hblanks
    rw [List.cons_append, hblank _ _ _ hfirst]
    exact ih _ hblanks

/-- Where comments are overwritten, the value before a gap is the one behind it. -/
theorem value_skip (state : GapState) (hcloses : state.Closes rest) :
    value (state.zone.blanked rest) position =
      value (Zone.code.blanked (state.skip rest position).rest)
        (state.skip rest position).position := by
  fun_induction GapState.skip state rest position with
  | case1 | case5 => rfl
  | case6 => simp
  | case2 rest position ih =>
    rw [zone, Zone.blanked_code_line, hblank _ _ _ rfl, hblank _ _ _ rfl]
    exact ih closes_line
  | case3 rest position ih =>
    cases hclosed : closesBlock rest with
    | true =>
      rw [zone, Zone.blanked_code_block hclosed, hblank _ _ _ rfl, hblank _ _ _ rfl]
      exact ih fun _ _ => hclosed
    | false => rw [skip_block_of_not_closes _ hclosed, zone]
  | case4 c rest position _ _ hblank' ih =>
    have hplain : opensComment (c :: rest) = false := by
      refine opensComment_of_ne ?_
      rintro rfl
      contradiction
    have hquote : c ≠ '"' := by
      rintro rfl
      contradiction
    rw [zone, Zone.blanked_code_cons hplain, if_neg hquote, hblank _ _ _ hblank']
    exact ih closes_outside
  | case7 rest position ih =>
    rw [zone, Zone.blanked_line_cons, if_pos rfl, hblank _ _ _ rfl]
    exact ih closes_outside
  | case8 c rest position hc ih =>
    rw [zone, Zone.blanked_line_cons, if_neg hc, value_overwritten value hblank]
    exact ih closes_line
  | case9 => exact absurd (hcloses _ rfl) (by decide)
  | case10 opened rest position ih =>
    rw [zone, Zone.blanked_block_close, hblank _ _ _ rfl, hblank _ _ _ rfl]
    exact ih closes_outside
  | case11 opened c rest position hinside ih =>
    rw [zone, Zone.blanked_block_cons fun others h => hinside others h.1 h.2,
      value_overwritten value hblank]
    exact ih (hcloses.inside hinside)

end Blanks

end GapState

namespace Cursor

/-- No comment comes after a gap. -/
theorem settled_skipGap (cursor : Cursor) : cursor.skipGap.Settled :=
  (GapState.skip_stops .outside GapState.closes_outside).1

/-- No gap comes after a gap. -/
@[simp] theorem skipGap_skipGap (cursor : Cursor) : cursor.skipGap.skipGap = cursor.skipGap := by
  have hstops : cursor.skipGap.Settled ∧ ∀ c ∈ cursor.skipGap.rest.head?, isBlank c = false :=
    GapState.skip_stops .outside GapState.closes_outside
  generalize cursor.skipGap = next at hstops
  obtain ⟨rest, position⟩ := next
  cases rest with
  | nil => rfl
  | cons c rest => exact GapState.skip_of_not_opens (hstops.2 c rfl) hstops.1

/-- With comments overwritten the gap at a cursor ends where it ended. -/
theorem skipGap_blanked (cursor : Cursor) :
    (cursor.blanked .code).skipGap = cursor.skipGap.blanked .code := by
  have hskip : (cursor.blanked .code).skipGap = (cursor.skipGap.blanked .code).skipGap :=
    GapState.value_skip GapState.outside.skip (fun _ _ _ => GapState.skip_blank) .outside
      GapState.closes_outside
  have hstops : cursor.skipGap.Settled ∧ ∀ c ∈ cursor.skipGap.rest.head?, isBlank c = false :=
    GapState.skip_stops .outside GapState.closes_outside
  rw [hskip]
  generalize cursor.skipGap = next at hstops
  obtain ⟨rest, position⟩ := next
  cases rest with
  | nil => simp [blanked, skipGap, GapState.skip]
  | cons c rest =>
    have hplain : opensComment (c :: rest) = false := hstops.1
    have hleft := Zone.opensComment_blanked (c :: rest)
    rw [Zone.blanked_code_cons hplain] at hleft
    rw [blanked, Zone.blanked_code_cons hplain]
    exact GapState.skip_of_not_opens (hstops.2 c rfl) hleft

end Cursor

end Kestrel
