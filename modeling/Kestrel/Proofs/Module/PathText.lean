import Kestrel.Module.Path
import Mathlib.Data.List.Basic

/-!
# Paths and their texts

The components of a text hold no slash and are never empty, so a path that is written down and read
again is the same path. Normal paths, and those that a module resolves an import to, are of this
kind.
-/

namespace Kestrel

/-- A component that can stand in a text as one that is read back: a name between slashes that is
neither `.` nor `..`, or the place above. -/
def PathPart.Readable : PathPart → Prop
  | current => False
  | parent => True
  | name text => text ≠ "" ∧ '/' ∉ text.toList ∧ text ≠ "." ∧ text ≠ ".."

/-- A path of which every component is read back. -/
def Path.Readable (path : Path) : Prop := ∀ part ∈ path.parts, part.Readable

section Pieces

/-- A text without slashes is one piece. -/
theorem splitAtSlashes_of_notMem {letters : List Char} (hslash : '/' ∉ letters)
    (piece : List Char) :
    splitAtSlashes piece letters = [String.ofList (piece.reverse ++ letters)] := by
  induction letters generalizing piece with
  | nil => simp [splitAtSlashes]
  | cons c rest ih =>
    obtain ⟨hc, hrest⟩ : '/' ≠ c ∧ '/' ∉ rest := by simpa using hslash
    rw [splitAtSlashes, if_neg (Ne.symm hc), ih hrest]
    simp

/-- What comes before the first slash is the first piece. -/
theorem splitAtSlashes_append {letters : List Char} (hslash : '/' ∉ letters)
    (piece rest : List Char) :
    splitAtSlashes piece (letters ++ '/' :: rest) =
      String.ofList (piece.reverse ++ letters) :: splitAtSlashes [] rest := by
  induction letters generalizing piece with
  | nil => simp [splitAtSlashes]
  | cons c others ih =>
    obtain ⟨hc, hothers⟩ : '/' ≠ c ∧ '/' ∉ others := by simpa using hslash
    rw [List.cons_append, splitAtSlashes, if_neg (Ne.symm hc), ih hothers]
    simp

/-- What stands before a slash and what stands after it are split by themselves. -/
theorem splitAtSlashes_append_slash (first rest piece : List Char) :
    splitAtSlashes piece (first ++ '/' :: rest) =
      splitAtSlashes piece first ++ splitAtSlashes [] rest := by
  induction first generalizing piece with
  | nil => simp [splitAtSlashes]
  | cons c others ih =>
    rw [List.cons_append, splitAtSlashes, splitAtSlashes]
    split
    · rw [ih, List.cons_append]
    · exact ih _

/-- A text has a piece between its slashes, be it an empty one. -/
theorem splitAtSlashes_ne_nil (letters piece : List Char) : splitAtSlashes piece letters ≠ [] := by
  induction letters generalizing piece with
  | nil => simp [splitAtSlashes]
  | cons c others ih =>
    rw [splitAtSlashes]
    split
    · simp
    · exact ih _

/-- Pieces that are joined by slashes are split into the same pieces. -/
theorem splitAtSlashes_intercalate {pieces : List String} (hne : pieces ≠ [])
    (hslash : ∀ piece ∈ pieces, '/' ∉ piece.toList) :
    splitAtSlashes [] ("/".intercalate pieces).toList = pieces := by
  rw [String.toList_intercalate]
  change splitAtSlashes [] (['/'].intercalate (pieces.map String.toList)) = pieces
  induction pieces with
  | nil => exact absurd rfl hne
  | cons piece others ih =>
    have hpiece : '/' ∉ piece.toList := hslash piece (by simp)
    cases others with
    | nil =>
      simp only [List.map_cons, List.map_nil, List.intercalate_singleton]
      rw [splitAtSlashes_of_notMem hpiece]
      simp
    | cons next others =>
      have hothers := ih (by simp) fun other hother => hslash other (by simp [hother])
      simp only [List.map_cons, List.intercalate_cons_cons] at hothers ⊢
      rw [List.append_assoc, List.singleton_append, splitAtSlashes_append hpiece, hothers]
      simp

/-- No piece of a text holds a slash, if none is in the piece that is being read. -/
theorem slash_notMem_of_mem_splitAtSlashes {letters piece : List Char} (hpiece : '/' ∉ piece)
    {found : String} (hfound : found ∈ splitAtSlashes piece letters) : '/' ∉ found.toList := by
  induction letters generalizing piece with
  | nil =>
    rw [splitAtSlashes, List.mem_singleton] at hfound
    simpa [hfound] using hpiece
  | cons c rest ih =>
    rw [splitAtSlashes] at hfound
    split at hfound
    · rcases List.mem_cons.mp hfound with rfl | hfound
      · simpa using hpiece
      · exact ih (by simp) hfound
    · next hc => exact ih (by simpa using ⟨Ne.symm hc, hpiece⟩) hfound

end Pieces

namespace PathPart

/-- A readable component is read back from its text. -/
theorem ofText_text {part : PathPart} (hreadable : part.Readable) : ofText part.text = part := by
  cases part with
  | current => exact hreadable.elim
  | parent => rfl
  | name text =>
    obtain ⟨_, _, hdot, hdots⟩ := hreadable
    simp [ofText, PathPart.text, hdot, hdots]

/-- The text of a readable component is a piece: it is not empty and holds no slash. -/
theorem text_piece {part : PathPart} (hreadable : part.Readable) :
    part.text ≠ "" ∧ '/' ∉ part.text.toList := by
  cases part with
  | current => exact hreadable.elim
  | parent => exact ⟨by decide, by decide⟩
  | name text => exact ⟨hreadable.1, hreadable.2.1⟩

/-- A piece that is not `.` is read as a readable component. -/
theorem readable_ofText {piece : String} (hne : piece ≠ "") (hslash : '/' ∉ piece.toList)
    (hcurrent : ofText piece ≠ .current) : (ofText piece).Readable := by
  unfold ofText at hcurrent ⊢
  split_ifs at hcurrent ⊢ with hdot hdots
  · exact absurd rfl hcurrent
  · trivial
  · exact ⟨hne, hslash, hdot, hdots⟩

end PathPart

namespace Path

/-- What is read from a text is readable, apart from the `.` at its start. -/
theorem readable_of_mem_ofText {text : String} {part : PathPart}
    (hpart : part ∈ (ofText text).parts) : part = .current ∨ part.Readable := by
  have hpieces : part ∈
      ((splitAtSlashes [] text.toList).filter (· != "")).map PathPart.ofText := by
    simp only [ofText] at hpart
    split at hpart
    · next hothers hparts =>
      rcases List.mem_cons.mp hpart with rfl | hpart
      · simp [hparts]
      · rw [hparts]
        exact List.mem_cons_of_mem _ (List.mem_filter.mp hpart).1
    · exact (List.mem_filter.mp hpart).1
  obtain ⟨piece, hpiece, rfl⟩ := List.mem_map.mp hpieces
  obtain ⟨hmem, hne⟩ := List.mem_filter.mp hpiece
  have hslash : '/' ∉ piece.toList := slash_notMem_of_mem_splitAtSlashes (by simp) hmem
  by_cases hcurrent : PathPart.ofText piece = .current
  · exact .inl hcurrent
  · exact .inr (PathPart.readable_ofText (by simpa using hne) hslash hcurrent)

/-- The pieces of the text of a readable path, with the empty one before a slash at the start. -/
theorem splitAtSlashes_text {path : Path} (hreadable : path.Readable) (hne : path.parts ≠ []) :
    splitAtSlashes [] path.text.toList =
      (if path.isAbsolute then [""] else []) ++ path.parts.map PathPart.text := by
  have hpiece : ∀ piece ∈ path.parts.map PathPart.text, '/' ∉ piece.toList := by
    intro piece hpiece
    obtain ⟨part, hpart, rfl⟩ := List.mem_map.mp hpiece
    exact (PathPart.text_piece (hreadable part hpart)).2
  have hrelative := splitAtSlashes_intercalate (mt List.map_eq_nil_iff.mp hne) hpiece
  unfold text
  by_cases habsolute : path.isAbsolute = true
  · have hslash : ("/" ++ "/".intercalate (path.parts.map PathPart.text)).toList =
        [] ++ '/' :: ("/".intercalate (path.parts.map PathPart.text)).toList := by
      simp
    rw [if_pos habsolute, if_pos habsolute, hslash, splitAtSlashes_append (by simp), hrelative]
    rfl
  · rw [if_neg habsolute, if_neg habsolute, String.empty_append, hrelative, List.nil_append]

/-- The pieces of the text of a readable path that are not empty are its components. -/
theorem pieces_text {path : Path} (hreadable : path.Readable) :
    (splitAtSlashes [] path.text.toList).filter (· != "") = path.parts.map PathPart.text := by
  by_cases hne : path.parts = []
  · unfold text
    rw [hne]
    cases path.isAbsolute <;> decide
  · have hkept : (path.parts.map PathPart.text).filter (· != "") =
        path.parts.map PathPart.text := by
      refine List.filter_eq_self.mpr fun piece hpiece => ?_
      obtain ⟨part, hpart, rfl⟩ := List.mem_map.mp hpiece
      simpa using (PathPart.text_piece (hreadable part hpart)).1
    rw [splitAtSlashes_text hreadable hne, List.filter_append, hkept]
    cases path.isAbsolute <;> rfl

/-- A text starts with a slash exactly if its readable path starts at the root. -/
theorem head?_text {path : Path} (hreadable : path.Readable) :
    (path.text.toList.head? == some '/') = path.isAbsolute := by
  unfold text
  by_cases habsolute : path.isAbsolute = true
  · simp [habsolute]
  · cases hparts : path.parts with
    | nil => simp [habsolute]
    | cons part others =>
      obtain ⟨hne, hslash⟩ := PathPart.text_piece (hreadable part (by simp [hparts]))
      have hletters : part.text.toList ≠ [] := by simpa using hne
      obtain ⟨c, rest, hrest⟩ := List.exists_cons_of_ne_nil hletters
      have hc : c ≠ '/' := by
        rintro rfl
        exact hslash (by simp [hrest])
      cases others with
      | nil => simp [habsolute, hrest, hc]
      | cons next others => simp [habsolute, String.toList_intercalate, hrest, hc]

/-- A readable path is read back from its text. -/
theorem ofText_text {path : Path} (hreadable : path.Readable) : ofText path.text = path := by
  have hread : (path.parts.map PathPart.text).map PathPart.ofText = path.parts := by
    rw [List.map_map]
    exact (List.map_congr_left fun part hpart =>
      PathPart.ofText_text (hreadable part hpart)).trans (List.map_id _)
  have hcurrent : .current ∉ path.parts := fun hpart => hreadable _ hpart
  have hkept : path.parts.filter (· != .current) = path.parts := by
    refine List.filter_eq_self.mpr fun part hpart => ?_
    have hne : part ≠ .current := fun heq => hcurrent (heq ▸ hpart)
    simpa using hne
  unfold ofText
  rw [head?_text hreadable, pieces_text hreadable, hread]
  dsimp only
  split
  · next hparts =>
    rw [hparts] at hcurrent
    exact absurd (List.mem_cons_self ..) hcurrent
  · rw [hkept]

/-- What a step of normalising keeps was there before or is the component. -/
theorem mem_of_mem_step {parts : List PathPart} {part other : PathPart}
    (hother : other ∈ step parts part) : other ∈ parts ∨ other = part ∧ part ≠ .current := by
  cases part with
  | current => exact .inl hother
  | name text =>
    rcases List.mem_cons.mp hother with rfl | hother
    · exact .inr ⟨rfl, by simp⟩
    · exact .inl hother
  | parent =>
    cases parts with
    | nil =>
      rw [step, List.mem_singleton] at hother
      exact .inr ⟨hother, by simp⟩
    | cons first others => exact .inl (List.mem_cons_of_mem _ hother)

/-- A normal path is readable if it comes from components that were read. -/
theorem readable_normal {path : Path}
    (hparts : ∀ part ∈ path.parts, part = .current ∨ part.Readable) : path.normal.Readable := by
  have hfold : ∀ (parts stack : List PathPart),
      (∀ part ∈ parts, part = .current ∨ part.Readable) → (∀ part ∈ stack, part.Readable) →
        ∀ part ∈ parts.foldl step stack, part.Readable := by
    intro parts
    induction parts with
    | nil => exact fun stack _ hstack => hstack
    | cons first others ih =>
      intro stack hparts hstack
      refine ih _ (fun part hpart => hparts part (by simp [hpart])) fun part hpart => ?_
      rcases mem_of_mem_step hpart with hpart | ⟨rfl, hne⟩
      · exact hstack part hpart
      · exact (hparts part (by simp)).resolve_left hne
  intro part hpart
  exact hfold path.parts [] hparts (by simp) part (List.mem_reverse.mp hpart)

/-- A name with the source extension is readable if the name is. -/
theorem readable_name_withExtension {name : String} (hname : (PathPart.name name).Readable) :
    (PathPart.name (name ++ "." ++ sourceExtension)).Readable := by
  obtain ⟨hne, hslash, _, _⟩ := hname
  have hlength : 5 ≤ (name ++ "." ++ sourceExtension).toList.length := by
    have hletters : name.toList ≠ [] := by simpa using hne
    have hpos := List.length_pos_of_ne_nil hletters
    simp [sourceExtension]
    omega
  refine ⟨?_, by simpa [sourceExtension] using hslash, ?_, ?_⟩ <;>
    · intro heq
      rw [heq] at hlength
      simp at hlength

end Path

end Kestrel
