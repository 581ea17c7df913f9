import Kestrel.Proofs.Native.Slice
import Kestrel.Proofs.Number.Count
import Kestrel.Proofs.Text.Search

/-!
# Searching and slicing text

The methods of a text count characters, whatever number of bytes these have. So a text contains
another one if it is found, the slice at the place that is found is the other text, and no earlier
slice and no slice of a text that does not contain it is.
-/

namespace Kestrel

section Calls

variable {evaluator : Evaluator} {module : String} {line : Nat} {state : State} {store : Store}
  {content sought : TextValue}

/-- The answer to a search: the place that was found, or a number that is none. -/
def searchAnswer : Option Nat → Value
  | some place => .count place
  | none => .number (-1)

/-- A search answers with the first place. -/
theorem textResult_find (callee : String) :
    textResult content .find ⟨callee, [.text sought]⟩ store =
    .ok (searchAnswer (findText (sought.content store).toList (content.content store).toList)) := by
  change (match findText (sought.content store).toList (content.content store).toList with
    | some place => Except.ok (Value.count place)
    | none => Except.ok (Value.number (-1))) = _
  cases findText (sought.content store).toList (content.content store).toList <;> rfl

/-- The method that searches. -/
theorem callProperty_find : callProperty evaluator (.text content) "find" [.text sought] module line
    state = .value (searchAnswer (findText (sought.content state.store).toList
        (content.content state.store).toList))
      { state with store := state.store.add .native (.ofText content .find) } := by
  have hname : TextMethod.ofName? content "find" = some .find :=
    TextMethod.ofName?_name content .find (by decide)
  rw [callProperty_textResult hname rfl, Eval.viewOrFail_of_ok (textResult_find _)]
  dsimp only
  rw [content.content_add_native, sought.content_add_native]
  cases findText (sought.content state.store).toList (content.content state.store).toList <;> rfl

/-- The method that says whether a search finds anything. -/
theorem callProperty_contains : callProperty evaluator (.text content) "contains" [.text sought]
    module line state = .value (.bool (findText (sought.content state.store).toList
        (content.content state.store).toList).isSome)
      { state with store := state.store.add .native (.ofText content .contains) } := by
  have hname : TextMethod.ofName? content "contains" = some .contains :=
    TextMethod.ofName?_name content .contains (by decide)
  rw [callProperty_textResult hname rfl]
  change Result.value (Value.bool (findText (sought.content (state.store.add .native _)).toList
    (content.content (state.store.add .native _)).toList).isSome) _ = _
  rw [content.content_add_native, sought.content_add_native]

/-- The method that counts characters. -/
theorem callProperty_len : callProperty evaluator (.text content) "len" [] module line state =
    .value (.count (content.content state.store).toList.length)
      { state with store := state.store.add .native (.ofText content .len) } := by
  have hname : TextMethod.ofName? content "len" = some .len :=
    TextMethod.ofName?_name content .len (by decide)
  rw [callProperty_textResult hname rfl]
  change Result.value (Value.count (content.content (state.store.add .native _)).length) _ = _
  rw [content.content_add_native, String.length_toList]

/-- Whatever a slice is called with, if it gives a value then this is a part of the text, which
begins at the first argument. -/
theorem exists_bounds_of_slice {arguments : List Value} {part : Value} {after : State}
    (hpart : callProperty evaluator (.text content) "slice" arguments module line state =
      .value part after) :
    ∃ start stop?, (Arguments.mk TextMethod.slice.name arguments).number 0 = .ok start ∧
      part = .string (String.ofList (sliced start stop? (content.content state.store).toList)) ∧
      after.store = state.store.add .native (.ofText content .slice) := by
  have hname : TextMethod.ofName? content "slice" = some .slice :=
    TextMethod.ofName?_name content .slice (by decide)
  rw [callProperty_textResult hname rfl] at hpart
  unfold Eval.viewOrFail at hpart
  rw [textResult_slice, content.content_add_native] at hpart
  cases hstart : (Arguments.mk TextMethod.slice.name arguments).number 0 with
  | error cause =>
    rw [hstart] at hpart
    cases hpart
  | ok start =>
    rw [hstart] at hpart
    cases hstop : (Arguments.mk TextMethod.slice.name arguments).number? 1 with
    | error cause =>
      rw [hstop] at hpart
      cases hpart
    | ok stop? =>
      rw [hstop] at hpart
      cases hpart
      exact ⟨start, stop?, rfl, rfl, rfl⟩

/-- A part of a text equals another text if it has the same characters. -/
theorem equals_part (part : List Char) :
    (Value.string (String.ofList part)).equals store (.text sought) =
      decide (part = (sought.content store).toList) := by
  change (String.ofList part == sought.content store) = _
  rw [Bool.eq_iff_iff, beq_iff_eq, decide_eq_true_iff]
  constructor
  · rintro heq
    rw [← heq, String.toList_ofList]
  · rintro rfl
    exact String.ofList_toList

/-- A value that a slice gives equals another text if the part of the text does. -/
theorem exists_equals_of_slice (sought : TextValue) {arguments : List Value} {part : Value}
    {after : State} (hpart : callProperty evaluator (.text content) "slice" arguments module line
      state = .value part after) :
    ∃ start stop?, (Arguments.mk TextMethod.slice.name arguments).number 0 = .ok start ∧
      part.equals after.store (.text sought) =
        decide (sliced start stop? (content.content state.store).toList =
          (sought.content state.store).toList) := by
  obtain ⟨start, stop?, hstart, rfl, hafter⟩ := exists_bounds_of_slice hpart
  refine ⟨start, stop?, hstart, ?_⟩
  rw [equals_part, hafter, sought.content_add_native]

end Calls

section Parts

variable {α : Type} {needle text : List α}

/-- A slice is there in the text where it starts. -/
theorem sliced_prefix_drop (start : Float) (stop? : Option Float) (text : List α) :
    sliced start stop? text <+: text.drop (resolveBound start text.length) := by
  unfold sliced
  change (text.take _).drop (resolveBound start text.length) <+: _
  rw [List.drop_take]
  exact List.take_prefix _ _

/-- The slice at the place where a text occurs, as long as the text, is the text. -/
theorem sliced_at_place {position size : Float} {place : Nat}
    (hfirst : FirstOccurrence needle text place) (hlength : text.length ≤ 2 ^ 53)
    (hposition : IsCount place position) (hsize : IsCount needle.length size) :
    sliced position (some (position + size)) text = needle := by
  have hfits := hfirst.add_length_le
  have hstop := hposition.add hsize (by omega)
  have hrange : sliceRange position (some (position + size)) text.length =
      (place, place + needle.length) := by
    unfold sliceRange
    dsimp only
    rw [resolveBound_of_index hposition.index_eq hfirst.le_length hlength,
      resolveBound_of_index hstop.index_eq hfits hlength, Nat.max_eq_right (Nat.le_add_right _ _)]
  rw [sliced_eq hrange, List.drop_take, Nat.add_sub_cancel_left]
  exact (List.prefix_iff_eq_take.mp hfirst.occurs).symm

/-- No slice that starts before the first place is the text that occurs there. -/
theorem sliced_ne_of_lt {position smaller : Float} {place : Nat} (stop? : Option Float)
    (hfirst : FirstOccurrence needle text place) (hlength : text.length ≤ 2 ^ 53)
    (hposition : IsCount place position) (hnonneg : 0 ≤ smaller) (hlt : smaller < position) :
    sliced smaller stop? text ≠ needle := by
  rintro rfl
  obtain ⟨earlier, hearlier, hindex⟩ := hposition.index_of_lt hnonneg hlt
  have hle := hfirst.le_length
  have hstart := resolveBound_of_index hindex (by omega) hlength
  exact hfirst.first earlier hearlier (hstart ▸ sliced_prefix_drop smaller stop? text)

end Parts

/-- The number that stands for no place is negative. -/
theorem not_nonneg_neg_one : ¬ (0 : Float) ≤ -1 := by decide +kernel

section Answers

variable {evaluator : Evaluator} {module : String} {line : Nat} {state : State}
  {content sought : TextValue} {position size : Float} {place : Nat}

/-- No slice of a text equals one that does not occur in it. -/
theorem slice_of_not_found (hnowhere : ∀ place, ¬ (sought.content state.store).toList <+:
      (content.content state.store).toList.drop place)
    {arguments : List Value} {part : Value} {after : State}
    (hpart : callProperty evaluator (.text content) "slice" arguments module line state =
      .value part after) : part.equals after.store (.text sought) = false := by
  obtain ⟨start, stop?, _, hequals⟩ := exists_equals_of_slice sought hpart
  rw [hequals, decide_eq_false_iff_not]
  exact fun heq => hnowhere _ (heq ▸ sliced_prefix_drop start stop? _)

/-- The slice at the place where a text occurs equals the text. -/
theorem slice_at_place (hfirst : FirstOccurrence (sought.content state.store).toList
      (content.content state.store).toList place)
    (hlength : (content.content state.store).toList.length ≤ 2 ^ 53)
    (hposition : IsCount place position)
    (hsize : IsCount (sought.content state.store).toList.length size) : ∃ part after,
      callProperty evaluator (.text content) "slice"
        [.number position, .number (position + size)] module line state = .value part after ∧
      part.equals after.store (.text sought) = true := by
  refine ⟨_, _, callProperty_slice_text content position (some (position + size)), ?_⟩
  rw [equals_part, decide_eq_true_iff, sought.content_add_native]
  exact sliced_at_place hfirst hlength hposition hsize

/-- No slice that starts before the first place equals the text that occurs there. -/
theorem slice_before_place (hfirst : FirstOccurrence (sought.content state.store).toList
      (content.content state.store).toList place)
    (hlength : (content.content state.store).toList.length ≤ 2 ^ 53)
    (hposition : IsCount place position) {smaller : Float} (hnonneg : 0 ≤ smaller)
    (hlt : smaller < position) {others : List Value} {part : Value} {after : State}
    (hpart : callProperty evaluator (.text content) "slice" (.number smaller :: others) module line
      state = .value part after) : part.equals after.store (.text sought) = false := by
  obtain ⟨start, stop?, hstart, hequals⟩ := exists_equals_of_slice sought hpart
  cases hstart
  rw [hequals, decide_eq_false_iff_not]
  exact sliced_ne_of_lt stop? hfirst hlength hposition hnonneg hlt

end Answers

/-- A text contains another one exactly if it is found at a place, and it does exactly if the bytes
of the other one occur among its bytes. The place is the first one where the other text occurs, and
so the first place of its bytes is at the beginning of a character. The slice from there on that is
as long as the other text equals it, and no slice does that begins earlier; no slice does at all if
nothing is found. Counts are exact as long as the text has no more than `2 ^ 53` characters. -/
theorem find_agrees_with_contains_and_slice (evaluator : Evaluator) (module : String) (line : Nat)
    (state : State) (content sought : TextValue) :
    let text := (content.content state.store).toList
    let needle := (sought.content state.store).toList
    ∃ (position size : Float) (found : Bool) (afterFind afterContains afterLen : State),
      callProperty evaluator (.text content) "find" [.text sought] module line state =
        .value (.number position) afterFind ∧
      callProperty evaluator (.text content) "contains" [.text sought] module line state =
        .value (.bool found) afterContains ∧
      callProperty evaluator (.text sought) "len" [] module line state =
        .value (.number size) afterLen ∧
      (found = true ↔ 0 ≤ position) ∧ (found = false ↔ position = -1) ∧
      (found = true ↔ ∃ offset, utf8Bytes needle <+: (utf8Bytes text).drop offset) ∧
      (0 ≤ position → ∃ place ≤ text.length, position = Float.ofNat place ∧
        FirstOccurrence needle text place ∧
        FirstOccurrence (utf8Bytes needle) (utf8Bytes text)
          (utf8Bytes (text.take place)).length) ∧
      ∀ later : State, content.content later.store = content.content state.store →
        sought.content later.store = sought.content state.store →
        (position = -1 → ∀ arguments part after,
          callProperty evaluator (.text content) "slice" arguments module line later =
            .value part after → part.equals after.store (.text sought) = false) ∧
        (0 ≤ position → text.length ≤ 2 ^ 53 →
          (∃ part after, callProperty evaluator (.text content) "slice"
              [.number position, .number (position + size)] module line later =
                .value part after ∧ part.equals after.store (.text sought) = true) ∧
          ∀ smaller others part after, 0 ≤ smaller → smaller < position →
            callProperty evaluator (.text content) "slice" (.number smaller :: others) module line
              later = .value part after → part.equals after.store (.text sought) = false) := by
  dsimp only
  have hfind := @callProperty_find evaluator module line state content sought
  have hcontains := @callProperty_contains evaluator module line state content sought
  have hlen := @callProperty_len evaluator module line state sought
  cases hfound : findText (sought.content state.store).toList
    (content.content state.store).toList with
  | none =>
    rw [hfound] at hfind hcontains
    have hnowhere := findText_eq_none_iff.mp hfound
    refine ⟨-1, _, false, _, _, _, hfind, hcontains, hlen, ?_, ?_, ?_, ?_, ?_⟩
    · simp [not_nonneg_neg_one]
    · simp
    · rw [exists_utf8Bytes_prefix_iff]
      simpa using hnowhere
    · exact fun hnonneg => absurd hnonneg not_nonneg_neg_one
    · intro later hcontent hsought
      refine ⟨fun _ arguments part after hpart => slice_of_not_found ?_ hpart,
        fun hnonneg => absurd hnonneg not_nonneg_neg_one⟩
      rwa [hcontent, hsought]
  | some place =>
    rw [hfound] at hfind hcontains
    have hfirst := findText_eq_some_iff.mp hfound
    have hnonneg := nonneg_ofNat place
    have hne : Float.ofNat place ≠ -1 := fun heq => not_nonneg_neg_one (heq ▸ hnonneg)
    refine ⟨Float.ofNat place, _, true, _, _, _, hfind, hcontains, hlen, ?_, ?_, ?_, ?_, ?_⟩
    · simp [hnonneg]
    · simp [hne]
    · rw [exists_utf8Bytes_prefix_iff]
      simpa using ⟨place, hfirst.occurs⟩
    · exact fun _ => ⟨place, hfirst.le_length, rfl, hfirst, hfirst.utf8Bytes⟩
    · intro later hcontent hsought
      refine ⟨fun heq => absurd heq hne, fun _ hlength => ?_⟩
      have hposition := isCount_ofNat (Nat.le_trans hfirst.le_length hlength)
      rw [← hcontent, ← hsought] at hfirst
      rw [← hcontent] at hlength
      have hfits := hfirst.add_length_le
      have hsize := isCount_ofNat (Nat.le_trans (Nat.le_of_add_left_le hfits) hlength)
      exact ⟨slice_at_place hfirst hlength hposition (hsought ▸ hsize),
        fun smaller others part after hsmaller hlt =>
          slice_before_place hfirst hlength hposition hsmaller hlt⟩

/-- A text of two characters is found behind one of two bytes, and is the slice there. -/
theorem find_behind_two_bytes :
    let content := TextValue.fixed "é😀é"
    let sought := TextValue.fixed "😀é"
    let evaluator := Evaluator.ofSteps ⟨false, .fromMemory [], []⟩ 0
    ∃ (position size : Float) (afterFind afterLen : State),
      callProperty evaluator (.text content) "find" [.text sought] "main" 1 default =
        .value (.number position) afterFind ∧
      callProperty evaluator (.text sought) "len" [] "main" 1 default =
        .value (.number size) afterLen ∧
      utf8Bytes "😀é".toList <+: (utf8Bytes "é😀é".toList).drop 2 ∧ 0 ≤ position ∧
      "é😀é".toList.length ≤ 2 ^ 53 ∧
      ∃ part after, callProperty evaluator (.text content) "slice"
        [.number position, .number (position + size)] "main" 1 afterFind = .value part after ∧
          part.equals after.store (.text sought) = true := by
  intro content sought evaluator
  obtain ⟨position, size, found, afterFind, _, afterLen, hfind, _, hlen, hfound, _, hbytes, _,
    hslices⟩ := find_agrees_with_contains_and_slice evaluator "main" 1 default content sought
  have hoccurs : utf8Bytes "😀é".toList <+: (utf8Bytes "é😀é".toList).drop 2 := by decide
  have hnonneg : 0 ≤ position := hfound.mp (hbytes.mpr ⟨2, hoccurs⟩)
  have hlength : "é😀é".toList.length ≤ 2 ^ 53 := by decide
  have hslice := (hslices afterFind rfl rfl).2 hnonneg hlength
  exact ⟨position, size, afterFind, afterLen, hfind, hlen, hoccurs, hnonneg, hlength, hslice.1⟩

end Kestrel
