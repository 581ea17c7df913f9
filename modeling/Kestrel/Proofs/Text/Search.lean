import Kestrel.Text.Search
import Mathlib.Data.Nat.Find
import Mathlib.Data.List.Basic

/-!
# The first occurrence of a text

A search finds the first place at which a text occurs in another one. It could as well look at the
bytes of both: in UTF-8 a byte that begins a character never stands inside one, so the bytes of a
text occur first where the text does, after the bytes of the characters in front of it.
-/

namespace Kestrel

/-- The first place at which a list occurs in another one. -/
structure FirstOccurrence {α : Type} (needle text : List α) (place : Nat) : Prop where
  occurs : needle <+: text.drop place
  first : ∀ earlier < place, ¬ needle <+: text.drop earlier

section Places

variable {α : Type} {c : α} {needle text : List α} {place : Nat}

/-- There is one first place at most. -/
theorem FirstOccurrence.unique {other : Nat} (hplace : FirstOccurrence needle text place)
    (hother : FirstOccurrence needle text other) : place = other := by
  by_contra hne
  rcases Nat.lt_or_gt_of_ne hne with hlt | hlt
  · exact hother.first _ hlt hplace.occurs
  · exact hplace.first _ hlt hother.occurs

/-- The first place is one of the text, or its end. -/
theorem FirstOccurrence.le_length (hplace : FirstOccurrence needle text place) :
    place ≤ text.length := by
  by_contra hbeyond
  have hend : text.drop place = text.drop text.length := by
    rw [List.drop_eq_nil_of_le (by omega), List.drop_length]
  exact hplace.first text.length (by omega) (hend ▸ hplace.occurs)

/-- What occurs ends before the text does. -/
theorem FirstOccurrence.add_length_le (hplace : FirstOccurrence needle text place) :
    place + needle.length ≤ text.length := by
  have hle := hplace.occurs.length_le
  have hstart := hplace.le_length
  rw [List.length_drop] at hle
  omega

/-- What occurs at the beginning occurs there first. -/
theorem firstOccurrence_zero (hstart : needle <+: text) : FirstOccurrence needle text 0 :=
  ⟨hstart, fun _ hlt => absurd hlt (Nat.not_lt_zero _)⟩

/-- What does not occur at the beginning occurs first where it does in the rest. -/
theorem firstOccurrence_succ (hstart : ¬ needle <+: c :: text) :
    FirstOccurrence needle (c :: text) (place + 1) ↔ FirstOccurrence needle text place := by
  constructor
  · intro hplace
    exact ⟨hplace.occurs, fun earlier hlt => hplace.first (earlier + 1) (by omega)⟩
  · intro hplace
    refine ⟨hplace.occurs, fun earlier hlt => ?_⟩
    cases earlier with
    | zero => exact hstart
    | succ earlier => exact hplace.first earlier (by omega)

/-- What occurs somewhere occurs first somewhere. -/
theorem exists_firstOccurrence [DecidableEq α] (hoccurs : needle <+: text.drop place) :
    ∃ first, FirstOccurrence needle text first := by
  have hexists : ∃ place, needle <+: text.drop place := ⟨place, hoccurs⟩
  exact ⟨Nat.find hexists, Nat.find_spec hexists, fun _ hlt => Nat.find_min hexists hlt⟩

end Places

section Texts

variable {needle text : List Char} {place : Nat}

/-- A search finds the first place at which a text occurs. -/
theorem findText_eq_some_iff :
    findText needle text = some place ↔ FirstOccurrence needle text place := by
  induction text generalizing place with
  | nil =>
    cases needle with
    | nil =>
      have hzero : FirstOccurrence ([] : List Char) [] 0 := firstOccurrence_zero List.nil_prefix
      refine ⟨fun hfound => ?_, fun hplace => ?_⟩
      · cases hfound
        exact hzero
      · rw [hplace.unique hzero]
        rfl
    | cons d others =>
      refine ⟨fun hfound => absurd hfound (Option.some_ne_none _).symm, fun hplace => ?_⟩
      have hoccurs := hplace.occurs
      rw [List.drop_nil] at hoccurs
      cases List.prefix_nil.mp hoccurs
  | cons c rest ih =>
    unfold findText
    by_cases hstart : needle <+: c :: rest
    · have hzero := firstOccurrence_zero hstart
      rw [if_pos (List.isPrefixOf_iff_prefix.mpr hstart), Option.some.injEq]
      exact ⟨fun heq => heq ▸ hzero, hzero.unique⟩
    · rw [if_neg (mt List.isPrefixOf_iff_prefix.mp hstart), Option.map_eq_some_iff]
      cases place with
      | zero =>
        refine ⟨fun ⟨_, _, hzero⟩ => absurd hzero (Nat.succ_ne_zero _), fun hplace => ?_⟩
        exact absurd hplace.occurs hstart
      | succ place =>
        rw [firstOccurrence_succ hstart, ← ih]
        simp

/-- A search finds nothing if a text does not occur. -/
theorem findText_eq_none_iff :
    findText needle text = none ↔ ∀ place, ¬ needle <+: text.drop place := by
  constructor
  · intro hnone place hoccurs
    obtain ⟨first, hfirst⟩ := exists_firstOccurrence hoccurs
    rw [findText_eq_some_iff.mpr hfirst] at hnone
    cases hnone
  · intro hnowhere
    rw [Option.eq_none_iff_forall_ne_some]
    intro place hfound
    exact hnowhere place (findText_eq_some_iff.mp hfound).occurs

/-- The bytes of a text in UTF-8. -/
def utf8Bytes (text : List Char) : List UInt8 := text.flatMap String.utf8EncodeChar

/-- The bytes of two texts in a row. -/
theorem utf8Bytes_append (front back : List Char) :
    utf8Bytes (front ++ back) = utf8Bytes front ++ utf8Bytes back :=
  List.flatMap_append

/-- A text that occurs is there in bytes, after the bytes in front of it. -/
theorem utf8Bytes_prefix_drop (hoccurs : needle <+: text.drop place) :
    utf8Bytes needle <+: (utf8Bytes text).drop (utf8Bytes (text.take place)).length := by
  obtain ⟨rest, hrest⟩ := hoccurs
  have hsplit : utf8Bytes text =
      utf8Bytes (text.take place) ++ (utf8Bytes needle ++ utf8Bytes rest) := by
    rw [← utf8Bytes_append, ← utf8Bytes_append, hrest, List.take_append_drop]
  rw [hsplit, List.drop_left]
  exact List.prefix_append _ _

/-- Bytes that begin a text are those of a text that begins it. -/
theorem prefix_of_utf8Bytes_prefix (hbytes : utf8Bytes needle <+: utf8Bytes text) :
    needle <+: text := by
  obtain ⟨rest, hrest⟩ := hbytes
  refine List.isPrefix_of_utf8Encode_append_eq_utf8Encode rest.toByteArray ?_
  unfold List.utf8Encode
  rw [← List.toByteArray_append]
  exact congrArg List.toByteArray hrest

/-- A byte that begins a character stands inside no character. -/
theorem eq_zero_of_getElem?_eq {c d : Char} {offset : Nat} {byte : UInt8}
    (hinside : (String.utf8EncodeChar c)[offset]? = some byte)
    (hbegins : (String.utf8EncodeChar d)[0]? = some byte) : offset = 0 := by
  obtain ⟨_, hinside⟩ := List.getElem?_eq_some_iff.mp hinside
  obtain ⟨_, hbegins⟩ := List.getElem?_eq_some_iff.mp hbegins
  have hfirst : byte.IsUTF8FirstByte := hbegins ▸ UInt8.isUTF8FirstByte_getElem_zero_utf8EncodeChar
  rw [← hinside] at hfirst
  exact UInt8.isUTF8FirstByte_getElem_utf8EncodeChar.mp hfirst

/-- Where the bytes of a text occur, a character begins, and the text occurs. -/
theorem exists_place_of_utf8Bytes_prefix {offset : Nat} (hneedle : needle ≠ [])
    (hbytes : utf8Bytes needle <+: (utf8Bytes text).drop offset) :
    ∃ place, offset = (utf8Bytes (text.take place)).length ∧ needle <+: text.drop place := by
  obtain ⟨d, others, rfl⟩ := List.exists_cons_of_ne_nil hneedle
  obtain ⟨byte, more, hd⟩ := List.exists_cons_of_ne_nil (@String.utf8EncodeChar_ne_nil d)
  have hbegins : (String.utf8EncodeChar d)[0]? = some byte := by rw [hd]; rfl
  have hfirst {bytes : List UInt8} (hstart : utf8Bytes (d :: others) <+: bytes) :
      bytes[0]? = some byte := by
    obtain ⟨rest, rfl⟩ := hstart
    change (String.utf8EncodeChar d ++ utf8Bytes others ++ rest)[0]? = some byte
    rw [hd]
    rfl
  induction text generalizing offset with
  | nil =>
    have hbyte := hfirst hbytes
    rw [List.getElem?_drop] at hbyte
    cases hbyte
  | cons c rest ih =>
    by_cases hinside : offset < (String.utf8EncodeChar c).length
    · have hbyte := hfirst hbytes
      rw [List.getElem?_drop, Nat.add_zero] at hbyte
      have hc : (String.utf8EncodeChar c)[offset]? = some byte :=
        (List.getElem?_append_left hinside).symm.trans hbyte
      have hoffset := eq_zero_of_getElem?_eq hc hbegins
      subst hoffset
      exact ⟨0, rfl, prefix_of_utf8Bytes_prefix hbytes⟩
    · obtain ⟨later, rfl⟩ := Nat.exists_eq_add_of_le (Nat.le_of_not_lt hinside)
      have hdrop : (utf8Bytes (c :: rest)).drop ((String.utf8EncodeChar c).length + later) =
          (utf8Bytes rest).drop later := List.drop_length_add_append _
      rw [hdrop] at hbytes
      obtain ⟨place, hplace, hoccurs⟩ := ih hbytes
      refine ⟨place + 1, ?_, hoccurs⟩
      rw [hplace]
      exact List.length_append.symm

/-- A text occurs exactly if its bytes do. -/
theorem exists_utf8Bytes_prefix_iff :
    (∃ offset, utf8Bytes needle <+: (utf8Bytes text).drop offset) ↔
      ∃ place, needle <+: text.drop place := by
  constructor
  · rintro ⟨offset, hbytes⟩
    by_cases hneedle : needle = []
    · exact ⟨0, hneedle ▸ List.nil_prefix⟩
    · obtain ⟨place, _, hoccurs⟩ := exists_place_of_utf8Bytes_prefix hneedle hbytes
      exact ⟨place, hoccurs⟩
  · rintro ⟨place, hoccurs⟩
    exact ⟨_, utf8Bytes_prefix_drop hoccurs⟩

/-- The bytes in front of a place are no fewer than those in front of an earlier one. -/
theorem length_utf8Bytes_take_le {earlier later : Nat} (hle : earlier ≤ later) :
    (utf8Bytes (text.take earlier)).length ≤ (utf8Bytes (text.take later)).length := by
  obtain ⟨middle, rfl⟩ := Nat.exists_eq_add_of_le hle
  rw [List.take_add, utf8Bytes_append, List.length_append]
  exact Nat.le_add_right _ _

/-- The bytes of a text occur first after the characters in front of its first place. -/
theorem FirstOccurrence.utf8Bytes (hplace : FirstOccurrence needle text place) :
    FirstOccurrence (utf8Bytes needle) (utf8Bytes text) (utf8Bytes (text.take place)).length := by
  refine ⟨utf8Bytes_prefix_drop hplace.occurs, fun earlier hlt hoccurs => ?_⟩
  have hneedle : needle ≠ [] := by
    rintro rfl
    have hzero := hplace.unique (firstOccurrence_zero List.nil_prefix)
    subst hzero
    exact absurd hlt (Nat.not_lt_zero _)
  obtain ⟨other, rfl, hother⟩ := exists_place_of_utf8Bytes_prefix hneedle hoccurs
  refine hplace.first other ?_ hother
  by_contra hle
  exact absurd (length_utf8Bytes_take_le (Nat.le_of_not_lt hle)) (Nat.not_le_of_lt hlt)

end Texts

end Kestrel
