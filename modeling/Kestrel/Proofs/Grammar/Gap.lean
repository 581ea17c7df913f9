import Kestrel.Proofs.Grammar.Identifier
import Kestrel.Proofs.Source.Comment

/-!
# Gaps as patterns

What may stand between the parts of a rule is a pattern as well: blanks, and comments with blanks
after each. No rule is opened in it, and every round of its repetitions takes something. Skipping a
gap leads to where reading this pattern leads.
-/

namespace Kestrel

namespace Pattern

/-- A character that separates words. -/
def blank : Pattern := oneOf ([" ", "\t", "\r", "\n"].map text)

/-- A character where a mark does not stand. -/
def unmarked (mark : String) : Pattern := .seq (.absent (text mark)) .anything

/-- A comment up to the end of the line, or up to its closing mark. -/
def comment : Pattern :=
  .alt (.seq (text "//") (.many (unmarked "\n")))
    (inOrder [text "/*", .many (unmarked "*/"), text "*/"])

/-- What may stand between the parts of a rule. -/
def gap : Pattern := .seq (.many blank) (.many (.seq comment (.many blank)))

/-- In a gap only what takes something is repeated. -/
theorem gap_descends : gap.descends 10 true := by decide

end Pattern

namespace Reads

variable {cursor next : Cursor} {nodes : List Node} {body first second : Pattern} {mark : String}

/-- What every round of a repetition inside a token keeps, the repetition keeps. -/
theorem many_keeps {P : Cursor → Prop}
    (hround : ∀ nodes cursor next, Reads .token body cursor (some (nodes, next)) →
      P cursor → P next)
    (hreads : Reads .token (.many body) cursor (some (nodes, next))) (hstart : P cursor) :
    P next := by
  generalize hmode : Mode.token = mode, hpattern : Pattern.many body = pattern,
    hverdict : some (nodes, next) = verdict at hreads
  induction hreads generalizing nodes next with
  | manyNone hrefused =>
    cases hverdict
    exact hstart
  | manyStop hinside hrefused =>
    cases hmode
    cases hpattern
    cases hverdict
    exact hround _ _ _ hinside hstart
  | manyNext hinside _ _ _ _ ihOthers =>
    cases hmode
    cases hpattern
    cases hverdict
    exact ihOthers (hround _ _ _ hinside hstart) rfl rfl rfl
  | _ => cases hpattern

/-- A repetition is never refused. -/
theorem many_ne_none {mode : Mode} {verdict : Verdict}
    (hreads : Reads mode (.many body) cursor verdict) : verdict ≠ none := by
  cases hreads <;> simp

/-- Of two patterns in a row that are refused inside a token, the first one is, or the second one is
where the first one led to. -/
theorem seq_refused (hreads : Reads .token (.seq first second) cursor none) :
    Reads .token first cursor none ∨
      ∃ nodes next, Reads .token first cursor (some (nodes, next)) ∧
        Reads .token second next none := by
  cases hreads with
  | seqRefused hfront => exact .inl hfront
  | @seq _ _ _ _ next nodes later _ hfront hback hdecided =>
    cases later with
    | none => exact .inr ⟨nodes, next, hfront, hback⟩
    | some found => cases hdecided

/-- What is taken where a mark does not stand is one character. -/
theorem unmarked_inv (hreads : Reads .token (.unmarked mark) cursor (some (nodes, next))) :
    ¬ mark.toList <+: cursor.rest ∧
      ∃ c rest, cursor.rest = c :: rest ∧ next = ⟨rest, cursor.position.after c⟩ := by
  obtain ⟨_, middle, _, habsent, hanything, -⟩ := hreads.seq_inv
  obtain ⟨hrefused, -, rfl⟩ := habsent.absent_inv
  refine ⟨fun hmark => absurd (hrefused.word_isSome.mpr hmark) (by simp), ?_⟩
  cases hanything with
  | anything hdecided =>
    obtain ⟨next, htake, hfound⟩ := Option.map_eq_some_iff.mp hdecided.symm
    cases hfound
    obtain ⟨c, rest, hrest, -, hnext⟩ := Cursor.take?_eq_some_iff.mp htake
    exact ⟨c, rest, hrest, hnext⟩

/-- Where no such character is taken, the mark stands, or the text ends. -/
theorem unmarked_refused (hreads : Reads .token (.unmarked mark) cursor none) :
    mark.toList <+: cursor.rest ∨ cursor.rest = [] := by
  rcases hreads.seq_refused with habsent | ⟨_, next, habsent, hanything⟩
  · cases habsent with
    | @absent _ _ _ inner _ hinside hdecided =>
      cases inner with
      | none => cases hdecided
      | some found => exact .inl (hinside.word_isSome.mp rfl)
  · obtain ⟨-, -, rfl⟩ := habsent.absent_inv
    cases hanything with
    | anything hdecided =>
      obtain ⟨rest, position⟩ := next
      cases rest with
      | nil => exact .inr rfl
      | cons c rest => cases hdecided

/-- A blank is skipped. -/
theorem blank_skips (hreads : Reads .token .blank cursor (some (nodes, next))) :
    cursor.skipGap = next.skipGap := by
  have hblanks : ∀ word ∈ [" ", "\t", "\r", "\n"], ∃ c, word.toList = [c] ∧ isBlank c := by
    simp [isBlank]
  obtain ⟨word, hfind, hword⟩ := hreads.oneOf_words
  obtain ⟨c, hc, hblank⟩ := hblanks word (List.mem_of_find?_eq_some hfind)
  have hrest := Cursor.rest_of_word? hword
  rw [Cursor.word?_of_rest hrest, Option.some.injEq] at hword
  rw [hc] at hrest hword
  unfold Cursor.skipGap
  rw [hrest, List.singleton_append, GapState.skip_blank hblank, ← hword]
  rfl

/-- Where no blank is taken, none comes next. -/
theorem blank_refused (hreads : Reads .token .blank cursor none) :
    ∀ c ∈ cursor.rest.head?, isBlank c = false := by
  intro c hhead
  obtain ⟨rest, hrest⟩ := List.head?_eq_some_iff.mp hhead
  have hwords := hreads.oneOf_refused
  by_contra hblank
  have hmember : ∃ word ∈ [" ", "\t", "\r", "\n"], word.toList = [c] := by
    simp only [isBlank, Bool.not_eq_false, Bool.or_eq_true, beq_iff_eq] at hblank
    rcases hblank with ((rfl | rfl) | rfl) | rfl <;> simp
  obtain ⟨word, hmember, hword⟩ := hmember
  have hnone := hwords (.text word) (List.mem_map_of_mem hmember)
  refine absurd (hnone.word_isSome.mpr ?_) (by simp)
  rw [hword, hrest]
  exact ⟨rest, rfl⟩

/-- A word that is read stands in front of what follows. -/
theorem text_inv {mode : Mode} (hreads : Reads mode (.text mark) cursor (some (nodes, next))) :
    cursor.rest = mark.toList ++ next.rest ∧
      next.position = mark.toList.foldl Position.after cursor.position := by
  have hword := hreads.word_inv.1
  have hrest := Cursor.rest_of_word? hword
  rw [Cursor.word?_of_rest hrest, Option.some.injEq] at hword
  exact ⟨hrest, by rw [← hword]⟩

/-- A comment up to the end of the line is skipped. -/
theorem line_skips
    (hreads : Reads .token (.seq (.text "//") (.many (.unmarked "\n"))) cursor
      (some (nodes, next))) :
    cursor.skipGap = next.skipGap := by
  obtain ⟨_, inside, _, hopening, hrounds, -⟩ := hreads.seq_inv
  obtain ⟨hrest, hposition⟩ := hopening.text_inv
  have hopened : cursor.skipGap = GapState.line.skip inside.rest inside.position := by
    unfold Cursor.skipGap
    rw [hrest, hposition]
    rfl
  have hinside : cursor.skipGap = GapState.line.skip next.rest next.position := by
    refine many_keeps (P := fun later =>
      cursor.skipGap = GapState.line.skip later.rest later.position)
      (fun _ later _ hround hkept => ?_) hrounds hopened
    obtain ⟨hmark, c, rest, hrest, rfl⟩ := hround.unmarked_inv
    have hc : c ≠ '\n' := by
      rintro rfl
      exact hmark ⟨rest, hrest.symm⟩
    rwa [hrest, GapState.skip, if_neg hc] at hkept
  rw [hinside, Cursor.skipGap]
  rcases hrounds.many_stops.unmarked_refused with ⟨rest, hrest⟩ | hrest
  · have hbreak : next.rest = '\n' :: rest := hrest.symm
    rw [hbreak, GapState.skip_blank rfl]
    rfl
  · rw [hrest]
    rfl

/-- A comment up to its closing mark is skipped. -/
theorem block_skips (hreads : Reads .token
      (.inOrder [.text "/*", .many (.unmarked "*/"), .text "*/"]) cursor (some (nodes, next))) :
    cursor.skipGap = next.skipGap := by
  obtain ⟨_, inside, _, hopening, hothers, -⟩ := hreads.seq_inv
  obtain ⟨_, stop, _, hrounds, hclosing, -⟩ := hothers.seq_inv
  obtain ⟨hrest, hposition⟩ := hopening.text_inv
  have hopened : cursor.skipGap =
      (GapState.block cursor).skip inside.rest inside.position := by
    obtain ⟨_, position⟩ := cursor
    subst hrest
    unfold Cursor.skipGap
    rw [hposition]
    rfl
  have hinside : cursor.skipGap = (GapState.block cursor).skip stop.rest stop.position := by
    refine many_keeps (P := fun later =>
      cursor.skipGap = (GapState.block cursor).skip later.rest later.position)
      (fun _ later _ hround hkept => ?_) hrounds hopened
    obtain ⟨hmark, c, rest, hrest, rfl⟩ := hround.unmarked_inv
    rw [hkept, hrest, GapState.skip]
    rintro others rfl rfl
    exact hmark ⟨others, hrest.symm⟩
  have hclosed : stop.rest = "*/".toList ++ next.rest := hclosing.text_inv.1
  rw [hinside, hclosed, Cursor.skipGap, hclosing.text_inv.2]
  rfl

/-- A comment is skipped. -/
theorem comment_skips (hreads : Reads .token .comment cursor (some (nodes, next))) :
    cursor.skipGap = next.skipGap := by
  rcases hreads.alt_inv with hline | ⟨-, hblock⟩
  · exact hline.line_skips
  · exact hblock.block_skips

/-- Where no closing mark is reached, there is none. -/
theorem closesBlock_of_refused
    (hreads : Reads .token (.seq (.many (.unmarked "*/")) (.text "*/")) cursor none) :
    closesBlock cursor.rest = false := by
  rcases hreads.seq_refused with hrounds | ⟨_, stop, hrounds, hclosing⟩
  · exact absurd rfl hrounds.many_ne_none
  · have hinside : closesBlock cursor.rest = closesBlock stop.rest := by
      refine many_keeps (P := fun later => closesBlock cursor.rest = closesBlock later.rest)
        (fun _ later _ hround hkept => ?_) hrounds rfl
      obtain ⟨hmark, c, rest, hrest, rfl⟩ := hround.unmarked_inv
      refine (hkept.trans (congrArg closesBlock hrest)).trans ?_
      simp only [closesBlock, Bool.or_eq_right_iff_imp, Bool.and_eq_true, decide_eq_true_eq]
      rintro ⟨rfl, hslash⟩
      obtain ⟨others, rfl⟩ := List.head?_eq_some_iff.mp hslash
      exact absurd ⟨others, hrest.symm⟩ hmark
    rcases hrounds.many_stops.unmarked_refused with hmark | hrest
    · exact absurd (hclosing.word_isSome.mpr hmark) (by simp)
    · rw [hinside, hrest]
      rfl

/-- Where no comment is taken, none is opened. -/
theorem comment_refused (hreads : Reads .token .comment cursor none) :
    opensComment cursor.rest = false := by
  cases hreads with
  | altSecond hline hblock =>
    have hslashes : ¬ "//".toList <+: cursor.rest := by
      rcases hline.seq_refused with hopening | ⟨_, _, _, hrounds⟩
      · exact fun hmark => absurd (hopening.word_isSome.mpr hmark) (by simp)
      · exact absurd rfl hrounds.many_ne_none
    have hopen (rest : List Char) (hrest : cursor.rest = '/' :: '*' :: rest) :
        closesBlock rest = false := by
      rcases hblock.seq_refused with hopening | ⟨_, inside, hopening, hothers⟩
      · exact absurd (hopening.word_isSome.mpr ⟨rest, hrest.symm⟩) (by simp)
      · have hinside : '/' :: '*' :: rest = "/*".toList ++ inside.rest :=
          hrest.symm.trans hopening.text_inv.1
        cases hinside
        exact hothers.closesBlock_of_refused
    unfold opensComment
    split
    · next rest hrest => exact absurd ⟨rest, hrest.symm⟩ hslashes
    · next rest hrest => exact hopen rest hrest
    · rfl

/-- Several blanks are skipped, and then none comes next. -/
theorem blanks_skip (hreads : Reads .token (.many .blank) cursor (some (nodes, next))) :
    cursor.skipGap = next.skipGap ∧ ∀ c ∈ next.rest.head?, isBlank c = false := by
  refine ⟨?_, hreads.many_stops.blank_refused⟩
  exact many_keeps (P := fun later => cursor.skipGap = later.skipGap)
    (fun _ _ _ hround hkept => hkept.trans hround.blank_skips) hreads rfl

/-- The pattern of a gap leads to where skipping it leads. -/
theorem gap_inv (hreads : Reads .token .gap cursor (some (nodes, next))) :
    next = cursor.skipGap := by
  obtain ⟨_, middle, _, hblanks, hcomments, -⟩ := hreads.seq_inv
  obtain ⟨hskipped, hplain⟩ : cursor.skipGap = next.skipGap ∧
      ∀ c ∈ next.rest.head?, isBlank c = false := by
    refine many_keeps (P := fun later => cursor.skipGap = later.skipGap ∧
      ∀ c ∈ later.rest.head?, isBlank c = false)
      (fun _ later _ hround hkept => ?_) hcomments hblanks.blanks_skip
    obtain ⟨_, middle, _, hcomment, hblanks, -⟩ := hround.seq_inv
    obtain ⟨hskipped, hplain⟩ := hblanks.blanks_skip
    exact ⟨hkept.1.trans (hcomment.comment_skips.trans hskipped), hplain⟩
  have hsettled : opensComment next.rest = false := by
    rcases hcomments.many_stops.seq_refused with hcomment | ⟨_, _, _, hblanks⟩
    · exact hcomment.comment_refused
    · exact absurd rfl hblanks.many_ne_none
  rw [hskipped]
  obtain ⟨rest, position⟩ := next
  cases rest with
  | nil => rfl
  | cons c rest => exact (GapState.skip_of_not_opens (hplain c rfl) hsettled).symm

end Reads

/-- Reading the pattern of a gap anywhere skips the gap, and leaves nothing. -/
theorem reads_gap (cursor : Cursor) : Reads .token .gap cursor (some ([], cursor.skipGap)) := by
  obtain ⟨verdict, hreads⟩ := Pattern.exists_reads Pattern.gap_descends .token cursor
  cases verdict with
  | none =>
    rcases hreads.seq_refused with hblanks | ⟨_, _, _, hcomments⟩
    · exact absurd rfl hblanks.many_ne_none
    · exact absurd rfl hcomments.many_ne_none
  | some found =>
    obtain ⟨nodes, next⟩ := found
    have hyields := (Pattern.matches_of_reads Pattern.gap_descends hreads).takes.yields.eq_nil
    obtain rfl : nodes = [] := List.map_eq_nil_iff.mp hyields
    rwa [hreads.gap_inv] at hreads

end Kestrel
