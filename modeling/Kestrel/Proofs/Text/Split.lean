import Kestrel.Proofs.Text.Search
import Mathlib.Data.List.Sort

/-!
# The parts of a text

A separator cuts a text where it occurs, from the left and without overlaps: what begins inside a
cut is no cut. The parts between the cuts hold no separator themselves, and with separators between
them they make up the text again.
-/

namespace Kestrel

/-- The places at which a separator cuts a text. The cuts do not overlap, and they are taken from
the left: wherever else the separator occurs, it begins inside a cut. -/
structure Cuts {α : Type} (separator text : List α) (places : List Nat) : Prop where
  occurs : ∀ place ∈ places, separator <+: text.drop place
  apart : places.Pairwise fun place later => place + separator.length ≤ later
  leftmost : ∀ place, separator <+: text.drop place →
    ∃ cut ∈ places, cut ≤ place ∧ place < cut + separator.length

namespace Cuts

variable {α : Type} {separator text : List α} {places others : List Nat} {place : Nat}

/-- What does not occur cuts nothing. -/
theorem nil (hnowhere : ∀ place, ¬ separator <+: text.drop place) : Cuts separator text [] :=
  ⟨fun _ hmem => absurd hmem List.not_mem_nil, .nil,
    fun place hoccurs => absurd hoccurs (hnowhere place)⟩

/-- The first occurrence is a cut, and behind it the rest of the text is cut. -/
theorem cons (hfirst : FirstOccurrence separator text place)
    (hcuts : Cuts separator (text.drop (place + separator.length)) places) :
    Cuts separator text (place :: places.map (place + separator.length + ·)) where
  occurs := by
    simp only [List.mem_cons, List.mem_map]
    rintro _ (rfl | ⟨cut, hcut, rfl⟩)
    · exact hfirst.occurs
    · have hoccurs := hcuts.occurs cut hcut
      rwa [List.drop_drop] at hoccurs
  apart := by
    refine List.pairwise_cons.mpr ⟨fun later hlater => ?_, ?_⟩
    · obtain ⟨cut, _, rfl⟩ := List.mem_map.mp hlater
      exact Nat.le_add_right _ _
    · refine List.pairwise_map.mpr (hcuts.apart.imp fun {cut later} hle => ?_)
      omega
  leftmost := by
    intro other hoccurs
    have hle : place ≤ other := by
      by_contra hlt
      exact hfirst.first other (Nat.lt_of_not_le hlt) hoccurs
    by_cases hinside : other < place + separator.length
    · exact ⟨place, List.mem_cons_self, hle, hinside⟩
    · obtain ⟨later, rfl⟩ := Nat.exists_eq_add_of_le (Nat.le_of_not_lt hinside)
      rw [← List.drop_drop] at hoccurs
      obtain ⟨cut, hcut, hcutLe, hcutLt⟩ := hcuts.leftmost later hoccurs
      refine ⟨place + separator.length + cut, ?_, by omega, by omega⟩
      exact List.mem_cons_of_mem _ (List.mem_map_of_mem hcut)

/-- No cut begins inside another one. -/
theorem eq_of_lt (hcuts : Cuts separator text places) {cut other : Nat} (hcut : cut ∈ places)
    (hother : other ∈ places) (hle : cut ≤ other) (hlt : other < cut + separator.length) :
    cut = other := by
  obtain ⟨i, hi, rfl⟩ := List.getElem_of_mem hcut
  obtain ⟨j, hj, rfl⟩ := List.getElem_of_mem hother
  have hapart := List.pairwise_iff_getElem.mp hcuts.apart
  rcases Nat.lt_trichotomy i j with hij | rfl | hji
  · have hfar := hapart i j hi hj hij
    omega
  · rfl
  · have hfar := hapart j i hj hi hji
    omega

/-- A cut is a cut whichever way the text is cut. -/
theorem mem_of_mem (hcuts : Cuts separator text places) (hothers : Cuts separator text others) :
    ∀ place ∈ places, place ∈ others := by
  intro place
  induction place using Nat.strong_induction_on with
  | _ place ih =>
    intro hplace
    obtain ⟨other, hother, hotherLe, hotherLt⟩ :=
      hothers.leftmost place (hcuts.occurs place hplace)
    obtain ⟨cut, hcut, hcutLe, hcutLt⟩ := hcuts.leftmost other (hothers.occurs other hother)
    by_cases hsame : other = place
    · exact hsame ▸ hother
    · -- the cut at `other` would be there in both ways, and overlap with the one at `place`
      have hcutMem := ih cut (by omega) hcut
      have heq := hothers.eq_of_lt hcutMem hother hcutLe hcutLt
      subst heq
      exact absurd (hcuts.eq_of_lt hcut hplace hotherLe hotherLt) hsame

/-- There is one way to cut a text. -/
theorem unique (hcuts : Cuts separator text places) (hothers : Cuts separator text others) :
    places = others := by
  have hlt {places : List Nat} (hcuts : Cuts separator text places) : places.Pairwise (· < ·) := by
    refine hcuts.apart.imp_of_mem fun {place later} hplace _ hle => ?_
    obtain ⟨cut, _, hcutLe, hcutLt⟩ := hcuts.leftmost place (hcuts.occurs place hplace)
    omega
  exact (hlt hcuts).eq_of_mem_iff (hlt hothers) fun place =>
    ⟨hcuts.mem_of_mem hothers place, hothers.mem_of_mem hcuts place⟩

end Cuts

/-- A text is made of parts that hold no separator, with separators between them where these cut
the text. -/
structure Parted {α : Type} (separator text : List α) (parts : List (List α)) : Prop where
  joined : separator.intercalate parts = text
  free : ∀ part ∈ parts, ∀ place, ¬ separator <+: part.drop place
  cuts : ∃ places, Cuts separator text places ∧ parts.length = places.length + 1

namespace Parted

variable {α : Type} {separator text : List α} {parts : List (List α)} {place : Nat}

/-- A text without the separator is one part. -/
theorem whole (hnowhere : ∀ place, ¬ separator <+: text.drop place) :
    Parted separator text [text] where
  joined := List.intercalate_singleton
  free := by
    rintro part hpart
    rwa [List.mem_singleton.mp hpart]
  cuts := ⟨[], .nil hnowhere, rfl⟩

/-- What is in front of the first separator is a part, before those of the rest. -/
theorem cons (hseparator : separator ≠ []) (hfirst : FirstOccurrence separator text place)
    (hparts : Parted separator (text.drop (place + separator.length)) parts) :
    Parted separator text (text.take place :: parts) where
  joined := by
    obtain ⟨places, _, hlength⟩ := hparts.cuts
    have hne : parts ≠ [] := List.ne_nil_of_length_eq_add_one hlength
    have hthere : (text.drop place).take separator.length = separator :=
      (List.prefix_iff_eq_take.mp hfirst.occurs).symm
    calc separator.intercalate (text.take place :: parts)
        = text.take place ++ separator ++ text.drop (place + separator.length) := by
          rw [List.intercalate_cons_of_ne_nil hne, hparts.joined]
      _ = text.take place ++
          ((text.drop place).take separator.length ++ (text.drop place).drop separator.length) := by
          rw [hthere, List.drop_drop, List.append_assoc]
      _ = text := by rw [List.take_append_drop, List.take_append_drop]
  free := by
    intro part hpart other hoccurs
    rcases List.mem_cons.mp hpart with rfl | hpart
    · -- it would occur in the text, too, before its first place there
      have hlong := hoccurs.length_le
      have hpos := List.length_pos_iff.mpr hseparator
      rw [List.drop_take, List.length_take] at hlong
      rw [List.drop_take] at hoccurs
      exact hfirst.first other (by omega) (hoccurs.trans (List.take_prefix _ _))
    · exact hparts.free part hpart other hoccurs
  cuts := by
    obtain ⟨places, hcuts, hlength⟩ := hparts.cuts
    exact ⟨_, .cons hfirst hcuts, by simp [hlength]⟩

end Parted

section Splitting

variable {separator text part : List Char} {place : Nat}

/-- The rest of a cut is passed over. -/
theorem splitFrom_skip (separator part text : List Char) (skip : Nat) :
    splitFrom separator skip part text = splitFrom separator 0 part (text.drop skip) := by
  induction text generalizing skip with
  | nil =>
    rw [List.drop_nil]
    rfl
  | cons c rest ih =>
    cases skip with
    | zero => rfl
    | succ skip => exact ih skip

/-- Where no separator is, the part goes on. -/
theorem splitFrom_past {c : Char} {rest : List Char} (hstart : ¬ separator <+: c :: rest) :
    splitFrom separator 0 part (c :: rest) = splitFrom separator 0 (c :: part) rest :=
  if_neg (mt List.isPrefixOf_iff_prefix.mp hstart)

/-- Where a separator is, the part ends, and the next one begins behind it. -/
theorem splitFrom_at (hseparator : separator ≠ []) (hstart : separator <+: text) :
    splitFrom separator 0 part text =
      part.reverse :: splitFrom separator 0 [] (text.drop separator.length) := by
  obtain ⟨d, others, rfl⟩ := List.exists_cons_of_ne_nil hseparator
  obtain ⟨rest, rfl⟩ := hstart
  have hcut : splitFrom (d :: others) 0 part (d :: (others ++ rest)) =
      part.reverse :: splitFrom (d :: others) others.length [] (others ++ rest) :=
    if_pos (List.isPrefixOf_iff_prefix.mpr (List.prefix_append (d :: others) rest))
  rw [List.drop_left]
  exact hcut.trans (by rw [splitFrom_skip, List.drop_left])

/-- Without a separator, the part goes on to the end. -/
theorem splitFrom_of_nowhere (hnowhere : ∀ place, ¬ separator <+: text.drop place) :
    splitFrom separator 0 part text = [part.reverse ++ text] := by
  induction text generalizing part with
  | nil =>
    rw [List.append_nil]
    rfl
  | cons c rest ih =>
    rw [splitFrom_past (hnowhere 0), ih fun place => hnowhere (place + 1), List.reverse_cons,
      List.append_assoc]
    rfl

/-- The part ends in front of the first separator, and the next one begins behind it. -/
theorem splitFrom_of_first (hseparator : separator ≠ [])
    (hfirst : FirstOccurrence separator text place) :
    splitFrom separator 0 part text = (part.reverse ++ text.take place) ::
      splitFrom separator 0 [] (text.drop (place + separator.length)) := by
  induction place generalizing text part with
  | zero =>
    have hstart : separator <+: text := hfirst.occurs
    rw [splitFrom_at hseparator hstart, List.take_zero, List.append_nil, Nat.zero_add]
  | succ place ih =>
    have hstart : ¬ separator <+: text := hfirst.first 0 (Nat.succ_pos place)
    cases text with
    | nil => exact absurd hfirst.occurs hstart
    | cons c rest =>
      rw [splitFrom_past hstart, ih ((firstOccurrence_succ hstart).mp hfirst), List.reverse_cons,
        List.append_assoc, Nat.add_right_comm, List.drop_succ_cons, List.take_succ_cons]
      rfl

/-- Splitting parts a text at its separators. -/
theorem parted_splitFrom (hseparator : separator ≠ []) (text : List Char) :
    Parted separator text (splitFrom separator 0 [] text) := by
  induction hlength : text.length using Nat.strong_induction_on generalizing text with
  | _ length ih =>
    by_cases hthere : ∃ place, separator <+: text.drop place
    · obtain ⟨_, hoccurs⟩ := hthere
      obtain ⟨place, hfirst⟩ := exists_firstOccurrence hoccurs
      have hpos := List.length_pos_iff.mpr hseparator
      have hlong := hfirst.add_length_le
      rw [splitFrom_of_first hseparator hfirst]
      refine .cons hseparator hfirst (ih _ ?_ _ rfl)
      rw [List.length_drop]
      omega
    · rw [splitFrom_of_nowhere (not_exists.mp hthere)]
      exact .whole (not_exists.mp hthere)

/-- The parts of a text, joined with the separator, are the text. -/
theorem intercalate_splitText (separator text : List Char) :
    separator.intercalate (splitText separator text) = text := by
  unfold splitText
  cases separator with
  | nil =>
    rw [if_pos List.isEmpty_nil]
    induction text with
    | nil => rfl
    | cons c rest ih => cases rest <;> simp_all
  | cons c rest => exact (parted_splitFrom (List.cons_ne_nil c rest) text).joined

end Splitting

end Kestrel
