import Kestrel.Proofs.Grammar.Spelling
import Kestrel.Proofs.Grammar.Verdict
import Mathlib.Data.List.Find

/-!
# Names and words

Where a name can start, the text has a longest front part of characters that names are made of. A
keyword is read where it is all of this part, and an identifier where this part is no reserved word.
-/

namespace Kestrel

/-- Whether a name may go on with a character. -/
def isNameChar (c : Char) : Bool :=
  ('a' ≤ c && c ≤ 'z' || 'A' ≤ c && c ≤ 'Z') || ('0' ≤ c && c ≤ '9') || c == '_'

/-- Whether a name may start with a character. -/
def isNameStart (c : Char) : Bool :=
  ('a' ≤ c && c ≤ 'z' || 'A' ≤ c && c ≤ 'Z') || c == '_'

/-- The longest front part that is made of characters of names. -/
def Cursor.name (cursor : Cursor) : String := String.ofList (cursor.rest.takeWhile isNameChar)

/-- Reserved words are made of characters of names. -/
theorem isNameChar_of_mem_reserved :
    ∀ word ∈ reservedWords, ∀ c ∈ word.toList, isNameChar c := by
  have hall : reservedWords.all (·.toList.all isNameChar) := by decide +kernel
  intro word hword
  exact List.all_eq_true.mp (List.all_eq_true.mp hall word hword)

/-- Reserved words start as names do. -/
theorem isNameStart_of_mem_reserved :
    ∀ word ∈ reservedWords, word.toList.head?.any isNameStart := by
  decide +kernel

/-- No reserved word comes after a word that it starts with. -/
theorem find?_isPrefixOf_reserved : ∀ word ∈ reservedWords,
    reservedWords.find? (fun first => first.toList.isPrefixOf word.toList) = some word := by
  decide +kernel

namespace Cursor

variable {cursor next : Cursor} {word : String} {letters : List Char} {c : Char}
  {rest : List Char}

/-- A word that comes next and goes no further is the name that comes next. -/
theorem name_eq_of_rest (htext : cursor.rest = word.toList ++ rest)
    (hmade : ∀ c ∈ word.toList, isNameChar c) (hends : ∀ c ∈ rest.head?, isNameChar c = false) :
    cursor.name = word := by
  have htake : rest.takeWhile isNameChar = [] := by
    cases rest with
    | nil => rfl
    | cons c rest => simp [hends c rfl]
  rw [name, htext, List.takeWhile_append_of_pos hmade, htake, List.append_nil, String.ofList_toList]

/-- The text goes on after the name with something else. -/
theorem rest_eq_of_name (hname : cursor.name = word) :
    ∃ rest, cursor.rest = word.toList ++ rest ∧ ∀ c ∈ rest.head?, isNameChar c = false := by
  refine ⟨cursor.rest.dropWhile isNameChar, ?_, fun c hc => ?_⟩
  · rw [← hname, name, String.toList_ofList, List.takeWhile_append_dropWhile]
  · have hdrop := List.head?_dropWhile_not isNameChar cursor.rest
    rwa [Option.mem_def.mp hc] at hdrop

/-- Where a reserved word is the name, a name starts. -/
theorem isNameStart_of_name (hreserved : cursor.name ∈ reservedWords) :
    cursor.rest.head?.any isNameStart := by
  obtain ⟨rest, hrest, -⟩ := rest_eq_of_name rfl
  have hstart := isNameStart_of_mem_reserved _ hreserved
  rw [hrest]
  cases hname : cursor.name.toList with
  | nil =>
    rw [hname] at hstart
    contradiction
  | cons c letters => rwa [hname] at hstart

/-- A word made of characters of names is at the front of the text exactly if it is at the front of
the name. -/
theorem prefix_name_iff (hmade : ∀ c ∈ word.toList, isNameChar c) :
    word.toList <+: cursor.name.toList ↔ word.toList <+: cursor.rest := by
  rw [name, String.toList_ofList]
  constructor
  · exact fun h => h.trans (List.takeWhile_prefix _)
  · rintro ⟨rest, hrest⟩
    rw [← hrest, List.takeWhile_append_of_pos hmade]
    exact List.prefix_append ..

/-- A word can be taken exactly where it comes next. -/
theorem word?_isSome_iff : (cursor.word? letters).isSome ↔ letters <+: cursor.rest := by
  induction letters generalizing cursor with
  | nil => simp [word?]
  | cons c letters ih =>
    obtain ⟨rest, position⟩ := cursor
    cases rest with
    | nil => simp [word?, take?]
    | cons first rest =>
      by_cases h : first = c
      · subst h
        simp [word?, take?, ih, List.cons_prefix_cons]
      · simp [word?, take?, h, Ne.symm h, List.cons_prefix_cons]

end Cursor

namespace Reads

variable {mode : Mode} {cursor next : Cursor} {verdict : Verdict} {nodes : List Node}
  {letters : List Char} {low high : Char} {first second pattern : Pattern}
  {patterns : List Pattern} {words : List String} {word : String}

/-- A word is read exactly where it comes next. -/
theorem word_isSome (hreads : Reads mode (.word letters) cursor verdict) :
    verdict.isSome ↔ letters <+: cursor.rest := by
  cases hreads with
  | word hdecided => rw [hdecided, Option.isSome_map, Cursor.word?_isSome_iff]

/-- A word of one character is read if this character comes next. -/
theorem mark_isSome {mark : Char} (hreads : Reads mode (.word [mark]) cursor verdict) :
    verdict.isSome = cursor.rest.head?.any (· == mark) := by
  rw [Bool.eq_iff_iff, hreads.word_isSome]
  cases cursor.rest with
  | nil => simp
  | cons c rest => simp [List.cons_prefix_cons, eq_comm (a := c)]

/-- A character of a range is read exactly where one comes next. -/
theorem range_isSome (hreads : Reads mode (.range low high) cursor verdict) :
    verdict.isSome = cursor.rest.head?.any fun c => low ≤ c && c ≤ high := by
  cases hreads with
  | range hdecided =>
    obtain ⟨rest, position⟩ := cursor
    cases rest with
    | nil => simp [hdecided, Cursor.take?]
    | cons c rest =>
      simp only [hdecided, Cursor.take?, Option.isSome_map, List.head?_cons, Option.any_some]
      split <;> simp_all

/-- A choice matches if one of its patterns does. -/
theorem alt_isSome {left right : Bool}
    (hfirst : ∀ verdict, Reads mode first cursor verdict → verdict.isSome = left)
    (hsecond : ∀ verdict, Reads mode second cursor verdict → verdict.isSome = right)
    (hreads : Reads mode (.alt first second) cursor verdict) :
    verdict.isSome = (left || right) := by
  cases hreads with
  | altFirst hinside => simp [← hfirst _ hinside]
  | altSecond hrefused hinside =>
    rw [hsecond _ hinside, ← hfirst _ hrefused]
    rfl

/-- A character of a name is taken if one comes next. -/
theorem nameChar_isSome (hreads : Reads mode .nameChar cursor verdict) :
    verdict.isSome = cursor.rest.head?.any isNameChar := by
  have hletter (verdict : Verdict) (hreads : Reads mode .letter cursor verdict) :=
    alt_isSome (fun _ => range_isSome) (fun _ => range_isSome) hreads
  have hdigit (verdict : Verdict) (hreads : Reads mode (.alt .letter .digit) cursor verdict) :=
    alt_isSome hletter (fun _ => range_isSome) hreads
  rw [alt_isSome hdigit (fun _ => mark_isSome) hreads]
  cases cursor.rest <;> rfl

/-- Where no character of a name may come next, none does. -/
theorem ends_of_absent (hreads : Reads mode (.absent .nameChar) cursor (some (nodes, next))) :
    ∀ c ∈ cursor.rest.head?, isNameChar c = false := by
  obtain ⟨hrefused, -, -⟩ := hreads.absent_inv
  have hnone := hrefused.nameChar_isSome
  intro c hc
  rw [Option.mem_def.mp hc] at hnone
  exact hnone.symm

/-- A word that no character of a name follows is all of the name. -/
theorem name_of_word (hmade : ∀ c ∈ word.toList, isNameChar c)
    (hfound : Reads .token (.text word) cursor (some (nodes, next)))
    (hends : Reads .token (.absent .nameChar) next verdict) (hmatched : verdict.isSome) :
    cursor.name = word := by
  obtain ⟨hfound', -⟩ := hfound.word_inv
  obtain ⟨⟨more, last⟩, rfl⟩ := Option.isSome_iff_exists.mp hmatched
  exact Cursor.name_eq_of_rest (Cursor.rest_of_word? hfound') hmade hends.ends_of_absent

/-- A keyword is all of the name. -/
theorem name_of_keyword (hmade : ∀ c ∈ word.toList, isNameChar c)
    (hreads : Reads .token (.keyword word) cursor (some (nodes, next))) : cursor.name = word := by
  obtain ⟨front, middle, back, hword, hends, -⟩ := hreads.seq_inv
  exact name_of_word hmade hword hends rfl

/-- If none of several patterns is refused, their choice is not. -/
theorem oneOf_refused (hreads : Reads mode (.oneOf patterns) cursor none) :
    ∀ pattern ∈ patterns, Reads mode pattern cursor none := by
  induction patterns with
  | nil => simp
  | cons pattern patterns ih =>
    cases patterns with
    | nil => exact List.forall_mem_singleton.mpr hreads
    | cons second others =>
      cases hreads with
      | altSecond hrefused hinside =>
        exact List.forall_mem_cons.mpr ⟨hrefused, ih hinside⟩

/-- Of several words the first one that the text starts with is read. -/
theorem oneOf_words (hreads : Reads mode (.oneOf (words.map .text)) cursor (some (nodes, next))) :
    ∃ word, words.find? (fun word => word.toList.isPrefixOf cursor.rest) = some word ∧
      cursor.word? word.toList = some next := by
  induction words with
  | nil =>
    obtain ⟨hrefused', -, -⟩ := hreads.absent_inv
    exact absurd (hrefused'.word_isSome.mpr (List.nil_prefix)) (by simp)
  | cons word words ih =>
    have hthis (hinside : Reads mode (.text word) cursor (some (nodes, next))) :
        ∃ found,
          (word :: words).find? (fun word => word.toList.isPrefixOf cursor.rest) = some found ∧
          cursor.word? found.toList = some next := by
      refine ⟨word, List.find?_cons_of_pos ?_, hinside.word_inv.1⟩
      exact List.isPrefixOf_iff_prefix.mpr (hinside.word_isSome.mp rfl)
    cases words with
    | nil => exact hthis hreads
    | cons second others =>
      rcases hreads.alt_inv with hinside | ⟨hrefused, hinside⟩
      · exact hthis hinside
      · obtain ⟨found, hfind, hword⟩ := ih hinside
        refine ⟨found, ?_, hword⟩
        rw [List.find?_cons_of_neg, hfind]
        intro hprefix
        exact absurd (hrefused.word_isSome.mpr (List.isPrefixOf_iff_prefix.mp hprefix)) (by simp)

/-- Where the reserved words are refused, none of them is the name. -/
theorem name_not_mem_of_reserved
    (hreads : Reads .token (.rule .reserved) cursor none) : cursor.name ∉ reservedWords := by
  intro hmem
  generalize hname : cursor.name = name at hmem
  have hmade := isNameChar_of_mem_reserved name hmem
  obtain ⟨rest, hrest, hends⟩ := Cursor.rest_eq_of_name hname
  cases hreads with
  | node houtside => contradiction
  | token hinside =>
    cases hinside with
    | seqRefused hfront =>
      have hrefused := hfront.oneOf_refused _ (List.mem_map_of_mem hmem)
      have hprefix : name.toList <+: cursor.rest := ⟨rest, hrest.symm⟩
      exact absurd (hrefused.word_isSome.mpr hprefix) (by simp)
    | @seq _ _ _ _ next _ later _ hfront hback hdecided =>
      -- the first word that the text starts with is the name: a shorter one would come later
      obtain ⟨word, hfind, hword⟩ := hfront.oneOf_words
      have hsame : ∀ first ∈ reservedWords,
          first.toList.isPrefixOf cursor.rest = first.toList.isPrefixOf name.toList := by
        intro first hfirst
        rw [Bool.eq_iff_iff, List.isPrefixOf_iff_prefix, List.isPrefixOf_iff_prefix, ← hname,
          Cursor.prefix_name_iff (isNameChar_of_mem_reserved first hfirst)]
      rw [List.find?_congr hsame, find?_isPrefixOf_reserved name hmem] at hfind
      obtain rfl : name = word := Option.some.inj hfind
      have hnext : next.rest = rest :=
        List.append_cancel_left ((Cursor.rest_of_word? hword).symm.trans hrest)
      cases later with
      | some found => contradiction
      | none =>
        cases hback with
        | @absent _ _ _ inner _ hinside hdecided =>
          have hchar := hinside.nameChar_isSome
          cases inner with
          | none => contradiction
          | some found =>
            change (some found).isSome = next.rest.head?.any isNameChar at hchar
            rw [hnext] at hchar
            cases hhead : rest.head? with
            | none =>
              rw [hhead] at hchar
              contradiction
            | some c =>
              rw [hhead, Option.any_some, hends c hhead] at hchar
              contradiction

/-- An identifier is a name that is no reserved word. -/
theorem name_of_identifier
    (hreads : Reads .spaced (.rule .identifier) cursor (some (nodes, next))) :
    cursor.name ∉ reservedWords ∧ cursor.rest.head?.any isNameStart := by
  obtain ⟨children, hinside, -⟩ := hreads.rule_inv (by decide)
  obtain ⟨front, middle, back, hreserved, hothers, -⟩ := hinside.seq_inv
  obtain ⟨hrefused, -, hmiddle⟩ := hreserved.absent_inv
  obtain ⟨first, later, more, hfirst, -, -⟩ := hothers.seq_inv
  refine ⟨name_not_mem_of_reserved hrefused, ?_⟩
  rw [hmiddle] at hfirst
  change Reads .token _ cursor _ at hfirst
  have hletter (verdict : Verdict) (hreads : Reads .token .letter cursor verdict) :=
    alt_isSome (fun _ => range_isSome) (fun _ => range_isSome) hreads
  have hstart := alt_isSome hletter (fun _ => mark_isSome) hfirst
  refine Eq.trans ?_ hstart.symm
  cases cursor.rest <;> rfl

end Reads

end Kestrel
