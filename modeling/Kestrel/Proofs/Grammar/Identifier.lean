import Kestrel.Proofs.Grammar.Termination
import Kestrel.Proofs.Grammar.Word

/-!
# Identifiers

Every word that is made as names are and is not reserved is an identifier, and every identifier is
such a word: where a name stands in a text, the identifier takes all of it and nothing else.
-/

namespace Kestrel

/-- A word that may be a name: it starts with a letter or an underscore, goes on with letters,
digits and underscores, and is not reserved. -/
structure IsName (word : String) : Prop where
  start : word.toList.head?.any isNameStart
  made : ∀ c ∈ word.toList, isNameChar c
  free : word ∉ reservedWords

instance : DecidablePred IsName := fun word =>
  decidable_of_iff (word.toList.head?.any isNameStart ∧ word.toList.all isNameChar ∧
    word ∉ reservedWords) ⟨fun ⟨hstart, hmade, hfree⟩ => ⟨hstart, List.all_eq_true.mp hmade, hfree⟩,
      fun ⟨hstart, hmade, hfree⟩ => ⟨hstart, List.all_eq_true.mpr hmade, hfree⟩⟩

/-- What a name starts with, it may go on with. -/
theorem isNameChar_of_isNameStart {c : Char} (hstart : isNameStart c) : isNameChar c := by
  simp only [isNameStart, isNameChar, Bool.or_eq_true] at hstart ⊢
  rcases hstart with hletter | hmark
  · exact .inl (.inl hletter)
  · exact .inr hmark

/-- The cursor after the characters of names that come next. -/
def Cursor.afterName (cursor : Cursor) : Cursor :=
  ⟨cursor.rest.dropWhile isNameChar, cursor.name.toList.foldl Position.after cursor.position⟩

namespace Cursor

variable {cursor next : Cursor} {rest : List Char} {word : String}

/-- After a word that comes next and goes no further there is what follows the word. -/
theorem afterName_of_rest (htext : cursor.rest = word.toList ++ rest)
    (hmade : ∀ c ∈ word.toList, isNameChar c) (hends : ∀ c ∈ rest.head?, isNameChar c = false) :
    cursor.afterName = ⟨rest, word.toList.foldl Position.after cursor.position⟩ := by
  have hdrop : rest.dropWhile isNameChar = rest := by
    cases rest with
    | nil => rfl
    | cons c rest => rw [List.dropWhile_cons_of_neg (by simp [hends c rfl])]
  rw [afterName, name_eq_of_rest htext hmade hends, htext, List.dropWhile_append_of_pos hmade,
    hdrop]

/-- What comes next is a name, and what follows it. -/
theorem rest_eq_name_append (cursor : Cursor) :
    cursor.rest = cursor.name.toList ++ cursor.afterName.rest := by
  rw [name, afterName, String.toList_ofList, List.takeWhile_append_dropWhile]

/-- The text up to the end of a name is the name. -/
theorem textTo_afterName (cursor : Cursor) : cursor.textTo cursor.afterName = cursor.name := by
  rw [textTo_eq cursor.rest_eq_name_append rfl, String.ofList_toList]

end Cursor

namespace Pattern

variable {text : List Char}

/-- A letter is read from one character, with which a name may start. -/
theorem made_of_letter (hspells : letter.Spells text) :
    ∃ c, text = [c] ∧ isNameStart c := by
  rcases hspells with ⟨c, hlow, hhigh, rfl⟩ | ⟨c, hlow, hhigh, rfl⟩
  · exact ⟨c, rfl, by simp [isNameStart, hlow, hhigh]⟩
  · exact ⟨c, rfl, by simp [isNameStart, hlow, hhigh]⟩

/-- A character of names is read from nothing else. -/
theorem made_of_nameChar (hspells : nameChar.Spells text) : ∀ c ∈ text, isNameChar c := by
  rcases hspells with (hletter | ⟨c, hlow, hhigh, rfl⟩) | rfl
  · obtain ⟨c, rfl, hc⟩ := made_of_letter hletter
    simpa using isNameChar_of_isNameStart hc
  · simp [isNameChar, hlow, hhigh]
  · simp [isNameChar]

/-- What an identifier takes is made of characters of names. -/
theorem made_of_identifier (hspells : Rule.identifier.definition.body.Spells text) :
    ∀ c ∈ text, isNameChar c := by
  obtain ⟨_, _, rfl, ⟨first, _, hfirst, ⟨rounds, hrounds, rfl⟩, rfl⟩, rfl⟩ := hspells
  intro c hc
  simp only [List.nil_append, List.mem_append, List.mem_flatten] at hc
  rcases hc with hc | ⟨round, hround, hc⟩
  · rcases hfirst with hletter | rfl
    · obtain ⟨first, rfl, hstart⟩ := made_of_letter hletter
      rw [List.mem_singleton.mp hc]
      exact isNameChar_of_isNameStart hstart
    · rw [List.mem_singleton.mp hc]
      decide
  · exact made_of_nameChar (hrounds round hround) c hc

end Pattern

namespace Reads

variable {mode : Mode} {cursor next : Cursor} {nodes : List Node} {body : Pattern} {word : String}

/-- A repetition inside a token stops where one more round is refused. -/
theorem many_stops (hreads : Reads .token (.many body) cursor (some (nodes, next))) :
    Reads .token body next none := by
  generalize hmode : Mode.token = mode, hpattern : Pattern.many body = pattern,
    hverdict : some (nodes, next) = verdict at hreads
  induction hreads generalizing nodes next with
  | manyNone hrefused =>
    cases hpattern
    cases hverdict
    exact hrefused
  | manyStop _ hrefused =>
    cases hmode
    cases hpattern
    cases hverdict
    exact hrefused
  | manyNext _ _ _ _ _ ihOthers =>
    cases hmode
    cases hpattern
    cases hverdict
    exact ihOthers rfl rfl rfl
  | _ => cases hpattern

/-- Where a reserved word is read, it is the name. -/
theorem name_of_reserved (hreads : Reads .token (.rule .reserved) cursor (some (nodes, next))) :
    cursor.name ∈ reservedWords := by
  cases hreads with
  | node houtside => contradiction
  | token hinside =>
    obtain ⟨_, middle, _, hwords, hends, -⟩ := hinside.seq_inv
    obtain ⟨word, hfind, hword⟩ := hwords.oneOf_words
    have hmem := List.mem_of_find?_eq_some hfind
    rw [Cursor.name_eq_of_rest (Cursor.rest_of_word? hword)
      (isNameChar_of_mem_reserved word hmem) hends.ends_of_absent]
    exact hmem

/-- An identifier is all of a name that is not reserved. -/
theorem identifier_inv
    (hreads : Reads .spaced (.rule .identifier) cursor (some (nodes, next))) :
    IsName cursor.name ∧ next = cursor.afterName ∧
      nodes = [Rule.identifier.nodeOf cursor next []] := by
  obtain ⟨hfree, hstart⟩ := hreads.name_of_identifier
  obtain ⟨children, hinside, rfl⟩ := hreads.rule_inv (by decide)
  have hmatch := Pattern.matches_of_reads (by decide) hinside
  obtain rfl : children = [] := List.map_eq_nil_iff.mp hmatch.takes.yields.eq_nil
  obtain ⟨taken, hrest, hposition⟩ := hmatch.takes.row.leads
  have hmade := Pattern.made_of_identifier (hmatch.spells rfl hrest)
  -- the characters of names are taken one after the other until another one comes
  have hends : ∀ c ∈ next.rest.head?, isNameChar c = false := by
    obtain ⟨_, _, _, -, hothers, -⟩ := hinside.seq_inv
    obtain ⟨_, _, _, -, hmany, -⟩ := hothers.seq_inv
    have hnone := hmany.many_stops.nameChar_isSome
    intro c hc
    rw [Option.mem_def.mp hc] at hnone
    exact hnone.symm
  have htext : cursor.rest = (String.ofList taken).toList ++ next.rest := by
    rw [String.toList_ofList, hrest]
  rw [← String.toList_ofList (l := taken)] at hmade hposition
  have hname := Cursor.name_eq_of_rest htext hmade hends
  refine ⟨⟨?_, hname ▸ hmade, hfree⟩, ?_, rfl⟩
  · cases hrest : cursor.rest with
    | nil =>
      rw [hrest] at hstart
      exact absurd hstart (by decide)
    | cons c rest =>
      rw [hrest, List.head?_cons, Option.any_some] at hstart
      simp [Cursor.name, hrest, isNameChar_of_isNameStart hstart, hstart]
  · rw [Cursor.afterName_of_rest htext hmade hends, ← hposition]

/-- The text of an identifier is the name. -/
theorem text_of_identifier : (Rule.identifier.nodeOf cursor cursor.afterName []).text =
    cursor.name :=
  cursor.textTo_afterName

/-- A name that is not reserved is an identifier. -/
theorem reads_identifier (hname : IsName cursor.name) :
    Reads .spaced (.rule .identifier) cursor
      (some ([Rule.identifier.nodeOf cursor cursor.afterName []], cursor.afterName)) := by
  obtain ⟨verdict, hreads'⟩ := Rule.identifier.exists_reads .spaced cursor
  cases verdict with
  | some found =>
    obtain ⟨-, hnext, hnodes⟩ := hreads'.identifier_inv
    rw [hnext] at hnodes
    rwa [show found = (found.1, found.2) from rfl, hnodes, hnext] at hreads'
  | none =>
    -- of the three parts none is refused
    have hinside' : Reads .token Rule.identifier.definition.body cursor none := by
      cases hreads' with
      | @node _ _ _ inner _ _ hinside hdecided =>
        cases inner with
        | none => exact hinside
        | some found => contradiction
    cases hinside' with
    | seqRefused hfront =>
      cases hfront with
      | @absent _ _ _ inner _ hinside hdecided =>
        cases inner with
        | none => contradiction
        | some found => exact absurd hinside.name_of_reserved hname.free
    | @seq _ _ _ _ next _ later _ hfront hback hdecided =>
      obtain rfl : later = none := by
        cases later with
        | none => rfl
        | some found => contradiction
      obtain ⟨-, -, rfl⟩ := hfront.absent_inv
      cases hback with
      | seqRefused hfirst =>
        have hletter (verdict : Verdict) (hreads : Reads .token .letter next verdict) :=
          alt_isSome (fun _ => range_isSome) (fun _ => range_isSome) hreads
        have hsome := alt_isSome hletter (fun _ => mark_isSome) hfirst
        have hstart := hname.start
        rw [Cursor.name, String.toList_ofList] at hstart
        cases hrest : next.rest with
        | nil =>
          rw [hrest] at hstart
          cases hstart
        | cons c rest =>
          rw [hrest] at hstart hsome
          by_cases hc : isNameChar c
          · rw [List.takeWhile_cons_of_pos hc] at hstart
            exact absurd (hsome.trans hstart) (by decide)
          · rw [List.takeWhile_cons_of_neg hc] at hstart
            cases hstart
      | @seq _ _ _ _ _ _ later _ hfirst hmany hdecided =>
        cases later with
        | none => cases hmany
        | some found => contradiction

end Reads

end Kestrel
