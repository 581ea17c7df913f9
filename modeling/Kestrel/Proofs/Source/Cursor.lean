import Kestrel.Grammar.Gap

/-!
# Where a cursor gets to

A cursor leads to another if the other one comes after some of the characters that the first has
before it. Whatever is read or skipped leads on, so that every cursor of a reading stands between
two characters of the text, on the line that its line feeds put it on.
-/

namespace Kestrel

namespace Position

/-- The place between a front part of a text and what follows it. -/
def In (source : String) (position : Position) : Prop :=
  ∃ read rest, source = read ++ rest ∧
    position = ⟨read.utf8ByteSize, 1 + read.toList.count '\n'⟩

/-- The place after some characters is as many bytes and lines further as they take. -/
theorem foldl_after (position : Position) (taken : List Char) :
    taken.foldl Position.after position =
      ⟨position.offset + (String.ofList taken).utf8ByteSize,
        position.line + taken.count '\n'⟩ := by
  induction taken generalizing position with
  | nil => simp
  | cons c taken ih =>
    simp only [List.foldl_cons, ih, after, String.ofList_cons, String.utf8ByteSize_append,
      String.utf8ByteSize_singleton, List.count_cons, mk.injEq]
    constructor
    · omega
    · by_cases h : c = '\n' <;> simp [h]; omega

variable {source : String} {position : Position}

/-- A place in a text is not beyond its end. -/
theorem In.offset_le (hwithin : position.In source) : position.offset ≤ source.utf8ByteSize := by
  obtain ⟨read, rest, rfl, rfl⟩ := hwithin
  simp

end Position

namespace Cursor

/-- A cursor after some of the characters that another has before it. -/
def LeadsTo (cursor later : Cursor) : Prop :=
  ∃ taken, cursor.rest = taken ++ later.rest ∧
    later.position = taken.foldl Position.after cursor.position

/-- A cursor somewhere in a text. -/
def In (source : String) (cursor : Cursor) : Prop := (ofText source).LeadsTo cursor

variable {source : String} {cursor later last : Cursor} {test : Char → Bool} {word : List Char}

/-- A place leads to itself. -/
@[refl] theorem LeadsTo.refl (cursor : Cursor) : cursor.LeadsTo cursor := ⟨[], rfl, rfl⟩

/-- What leads on twice leads on. -/
theorem LeadsTo.trans (hfirst : cursor.LeadsTo later) (hsecond : later.LeadsTo last) :
    cursor.LeadsTo last := by
  obtain ⟨taken, hrest, hposition⟩ := hfirst
  obtain ⟨more, hrest', hposition'⟩ := hsecond
  exact ⟨taken ++ more, by simp [hrest, hrest'], by simp [hposition, hposition']⟩

/-- Further on, the offset is no smaller. -/
theorem LeadsTo.offset_le (hleads : cursor.LeadsTo later) :
    cursor.position.offset ≤ later.position.offset := by
  obtain ⟨taken, -, hposition⟩ := hleads
  simp [hposition, Position.foldl_after]

/-- Further on, no more is left. -/
theorem LeadsTo.length_le (hleads : cursor.LeadsTo later) :
    later.rest.length ≤ cursor.rest.length := by
  obtain ⟨taken, hrest, -⟩ := hleads
  simp [hrest]

/-- Less is left before a cursor that is further on. -/
theorem LeadsTo.length_lt (hleads : cursor.LeadsTo later)
    (hfurther : cursor.position.offset < later.position.offset) :
    later.rest.length < cursor.rest.length := by
  obtain ⟨taken, hrest, hposition⟩ := hleads
  cases taken with
  | nil =>
    rw [hposition] at hfurther
    exact absurd hfurther (Nat.lt_irrefl _)
  | cons c taken =>
    rw [hrest, List.length_append, List.length_cons]
    omega

/-- A cursor before which less is left is further on. -/
theorem LeadsTo.offset_lt (hleads : cursor.LeadsTo later)
    (hshorter : later.rest.length < cursor.rest.length) :
    cursor.position.offset < later.position.offset := by
  obtain ⟨taken, hrest, hposition⟩ := hleads
  cases taken with
  | nil =>
    rw [hrest] at hshorter
    exact absurd hshorter (Nat.lt_irrefl _)
  | cons c taken =>
    have hbytes := c.utf8Size_pos
    rw [hposition, Position.foldl_after, String.ofList_cons, String.utf8ByteSize_append,
      String.utf8ByteSize_singleton]
    dsimp only
    omega

/-- The start of a text is in the text. -/
theorem ofText_in : (ofText source).In source := .refl _

/-- Further on from a place of a text is a place of it. -/
theorem In.leads (hwithin : cursor.In source) (hleads : cursor.LeadsTo later) : later.In source :=
  hwithin.trans hleads

/-- A cursor in a text stands at a place of it. -/
theorem In.position (hwithin : cursor.In source) : cursor.position.In source := by
  obtain ⟨taken, hrest, hposition⟩ := hwithin
  refine ⟨String.ofList taken, String.ofList cursor.rest, ?_, ?_⟩
  · rw [← String.ofList_append, ← hrest]
    exact String.ofList_toList.symm
  · simp [hposition, Position.foldl_after, ofText, Position.origin]

/-- A character leads to what is behind it. -/
theorem leadsTo_after (c : Char) (rest : List Char) (position : Position) :
    LeadsTo ⟨c :: rest, position⟩ ⟨rest, position.after c⟩ :=
  ⟨[c], rfl, rfl⟩

/-- A character that is taken leads on. -/
theorem leadsTo_of_take? (htaken : cursor.take? test = some later) :
    cursor.LeadsTo later ∧ cursor.position.offset < later.position.offset := by
  unfold take? at htaken
  split at htaken
  · contradiction
  · rename_i c rest hrest
    split at htaken
    · cases htaken
      refine ⟨⟨[c], hrest, rfl⟩, ?_⟩
      have := c.utf8Size_pos
      simp only [Position.after]
      omega
    · contradiction

/-- A word that is read leads on, the empty one to where the cursor was. -/
theorem leadsTo_of_word? (hfound : cursor.word? word = some later) :
    cursor.LeadsTo later ∧ (word ≠ [] → cursor.position.offset < later.position.offset) := by
  induction word generalizing cursor with
  | nil => cases hfound; exact ⟨.refl _, fun h => absurd rfl h⟩
  | cons c word ih =>
    unfold word? at hfound
    split at hfound
    · contradiction
    · rename_i next hnext
      obtain ⟨hfirst, hoffset⟩ := leadsTo_of_take? hnext
      obtain ⟨hothers, -⟩ := ih hfound
      exact ⟨hfirst.trans hothers, fun _ => Nat.lt_of_lt_of_le hoffset hothers.offset_le⟩

end Cursor

/-- What a gap takes is skipped. In a comment that is never closed the gap ends where the comment
was opened, which is before the place that the reader is at. -/
theorem GapState.skip_leads (start : Cursor) (state : GapState) (rest : List Char)
    (position : Position) (hhere : start.LeadsTo ⟨rest, position⟩)
    (hopened : ∀ mark, state = .block mark → start.LeadsTo mark) :
    start.LeadsTo (state.skip rest position) := by
  have hstep {c rest position} (h : start.LeadsTo ⟨c :: rest, position⟩) :
      start.LeadsTo ⟨rest, position.after c⟩ := h.trans (Cursor.leadsTo_after ..)
  fun_induction GapState.skip state rest position with
  | case1 | case5 | case6 => exact hhere
  | case2 _ _ ih => exact ih (hstep (hstep hhere)) (by simp)
  | case3 _ _ ih =>
    exact ih (hstep (hstep hhere)) (by rintro _ ⟨⟩; exact hhere)
  | case4 _ _ _ _ _ _ ih => exact ih (hstep hhere) (by simp)
  | case7 _ _ ih => exact ih (hstep hhere) (by simp)
  | case8 _ _ _ _ ih => exact ih (hstep hhere) (by simp)
  | case9 => exact hopened _ rfl
  | case10 _ _ _ ih => exact ih (hstep (hstep hhere)) (by simp)
  | case11 _ _ _ _ _ ih => exact ih (hstep hhere) hopened

/-- A gap leads to where it ends. -/
theorem Cursor.skipGap_leads (cursor : Cursor) : cursor.LeadsTo cursor.skipGap :=
  GapState.skip_leads cursor .outside _ _ (.refl _) (by simp)

end Kestrel
