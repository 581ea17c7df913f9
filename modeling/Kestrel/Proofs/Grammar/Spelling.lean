import Kestrel.Proofs.Grammar.Reading
import Kestrel.Proofs.Number.Reading

/-!
# How tokens are spelled

A token takes characters one after the other, and its node keeps them. Which texts a pattern may
take is read off the pattern, as for a regular expression; what must not come next is left out.
-/

namespace Kestrel

namespace Pattern

/-- The texts that a pattern may take, if it is read as a token. Of the rules inside it nothing is
said. -/
def Spells : Pattern → List Char → Prop
  | .word letters, text => text = letters
  | .range low high, text => ∃ c, low ≤ c ∧ c ≤ high ∧ text = [c]
  | .anything, text => ∃ c, text = [c]
  | .rule _, _ => True
  | .seq first second, text => ∃ front back, first.Spells front ∧ second.Spells back ∧
      text = front ++ back
  | .alt first second, text => first.Spells text ∨ second.Spells text
  | .opt body, text => text = [] ∨ body.Spells text
  | .many body, text => ∃ rounds : List (List Char), (∀ round ∈ rounds, body.Spells round) ∧
      text = rounds.flatten
  | .start, text | .finish, text | .absent _, text => text = []

end Pattern

namespace Cursor

variable {cursor next : Cursor} {taken word : List Char} {test : Char → Bool}

/-- What is taken is one character that passes the test. -/
theorem take?_eq_some_iff : cursor.take? test = some next ↔
    ∃ c rest, cursor.rest = c :: rest ∧ test c ∧ next = ⟨rest, cursor.position.after c⟩ := by
  unfold take?
  cases hrest : cursor.rest with
  | nil => simp
  | cons c rest =>
    dsimp only
    split_ifs with hc
    · constructor
      · rintro ⟨⟩
        exact ⟨c, rest, rfl, hc, rfl⟩
      · rintro ⟨_, _, ⟨⟩, _, rfl⟩
        rfl
    · refine ⟨nofun, ?_⟩
      rintro ⟨_, _, ⟨⟩, hc', _⟩
      exact absurd hc' hc

/-- What is read of a word is the word. -/
theorem rest_of_word? (hfound : cursor.word? word = some next) :
    cursor.rest = word ++ next.rest := by
  induction word generalizing cursor with
  | nil => cases hfound; rfl
  | cons c word ih =>
    unfold word? at hfound
    split at hfound
    · contradiction
    · rename_i between htake
      obtain ⟨c', rest, hrest, hc, rfl⟩ := take?_eq_some_iff.mp htake
      obtain rfl : c' = c := by simpa using hc
      rw [hrest, List.cons_append, ← ih hfound]

/-- A word that comes next is read. -/
theorem word?_of_rest {rest : List Char} (htext : cursor.rest = word ++ rest) :
    cursor.word? word = some ⟨rest, word.foldl Position.after cursor.position⟩ := by
  induction word generalizing cursor with
  | nil =>
    obtain ⟨_, position⟩ := cursor
    cases htext
    rfl
  | cons c word ih =>
    have htake : cursor.take? (· == c) = some ⟨word ++ rest, cursor.position.after c⟩ :=
      take?_eq_some_iff.mpr ⟨c, word ++ rest, htext, beq_self_eq_true c, rfl⟩
    rw [word?, htake]
    exact ih rfl

/-- The characters that cover as many bytes as a front part are the front part. -/
theorem front_append (taken rest : List Char) :
    front (taken ++ rest) (String.ofList taken).utf8ByteSize = taken := by
  induction taken with
  | nil => cases rest <;> simp [front]
  | cons c taken ih =>
    have := c.utf8Size_pos
    simp only [List.cons_append, front, String.ofList_cons, String.utf8ByteSize_append,
      String.utf8ByteSize_singleton, Nat.add_sub_cancel_left, ih]
    rw [if_neg (by omega)]

/-- The text between two cursors is what the first has before it up to the second. -/
theorem textTo_eq (hrest : cursor.rest = taken ++ next.rest)
    (hposition : next.position = taken.foldl Position.after cursor.position) :
    cursor.textTo next = String.ofList taken := by
  have hbytes : next.position.offset - cursor.position.offset =
      (String.ofList taken).utf8ByteSize := by
    rw [hposition, Position.foldl_after]
    exact Nat.add_sub_cancel_left ..
  rw [textTo, hbytes, hrest, front_append]

end Cursor

/-- What a token takes is one of the texts that its pattern may take. -/
theorem Matches.spells {mode : Mode} {pattern : Pattern} {cursor next : Cursor} {nodes : List Node}
    (hfound : Matches mode pattern cursor nodes next) (htoken : mode = .token) {taken : List Char}
    (hrest : cursor.rest = taken ++ next.rest) : pattern.Spells taken := by
  induction hfound generalizing taken with
  | start | finish | absent => exact List.self_eq_append_left.mp hrest
  | word hfound => exact List.append_cancel_right (hrest.symm.trans (Cursor.rest_of_word? hfound))
  | range hfound =>
    obtain ⟨c, _, hrest', hc, rfl⟩ := Cursor.take?_eq_some_iff.mp hfound
    have hbounds := Bool.and_eq_true_iff.mp hc
    refine ⟨c, of_decide_eq_true hbounds.1, of_decide_eq_true hbounds.2, ?_⟩
    exact List.append_cancel_right (hrest.symm.trans hrest')
  | anything hfound =>
    obtain ⟨c, _, hrest', _, rfl⟩ := Cursor.take?_eq_some_iff.mp hfound
    exact ⟨c, List.append_cancel_right (hrest.symm.trans hrest')⟩
  | token | node => trivial
  | seq hfront hback ihFront ihBack =>
    subst htoken
    obtain ⟨first, hfirst, -⟩ := hfront.takes.row.leads
    obtain ⟨second, hsecond, -⟩ := hback.takes.row.leads
    refine ⟨first, second, ihFront rfl hfirst, ihBack rfl hsecond, ?_⟩
    refine List.append_cancel_right (hrest.symm.trans ?_)
    rw [hfirst, List.append_assoc, ← hsecond]
    rfl
  | altFirst _ ih => exact .inl (ih htoken hrest)
  | altSecond _ ih => exact .inr (ih htoken hrest)
  | optNone => exact .inl (by simpa using hrest)
  | optSome _ ih => exact .inr (ih htoken hrest)
  | manyNone => exact ⟨[], by simp, by simpa using hrest⟩
  | manyFirst _ ih => exact ⟨[taken], by simpa using ih htoken hrest, by simp⟩
  | manyNext hsofar hround ihSofar ihRound =>
    subst htoken
    obtain ⟨first, hfirst, -⟩ := hsofar.takes.row.leads
    obtain ⟨last, hlast, -⟩ := hround.takes.row.leads
    obtain ⟨rounds, hrounds, rfl⟩ := ihSofar rfl hfirst
    refine ⟨rounds ++ [last], ?_, ?_⟩
    · simpa [or_imp, forall_and] using ⟨hrounds, ihRound rfl hlast⟩
    · refine List.append_cancel_right (hrest.symm.trans ?_)
      rw [hfirst, List.flatten_append, List.append_assoc]
      congr 1
      rw [List.flatten_singleton]
      exact hlast

/-- The text that a token keeps is one of those that its pattern may take. -/
theorem Matches.spells_textTo {pattern : Pattern} {cursor next : Cursor} {nodes : List Node}
    (hfound : Matches .token pattern cursor nodes next) :
    pattern.Spells (cursor.textTo next).toList := by
  obtain ⟨taken, hrest, hposition⟩ := hfound.takes.row.leads
  rw [Cursor.textTo_eq hrest hposition, String.toList_ofList]
  exact hfound.spells rfl hrest

section Strings

/-- A character of a string literal, or two of them after a backslash. -/
def Pattern.stringItem : Pattern :=
  .alt (.seq (text "\\") .anything) (.seq (.absent (.alt (text "\"") (text "\\"))) .anything)

/-- The inside of a string literal, item by item. -/
inductive Contents : List Char → Prop
  | nil : Contents []
  | escape {raw : List Char} (mark : Char) (hothers : Contents raw) :
      Contents ('\\' :: mark :: raw)
  | plain {c : Char} {raw : List Char} (hnoQuote : c ≠ '"') (hnoBackslash : c ≠ '\\')
      (hothers : Contents raw) : Contents (c :: raw)

variable {cursor next : Cursor} {nodes : List Node} {raw front : List Char}

/-- Items with other ones behind them are the inside of a literal, too. -/
theorem Contents.append (hfirst : Contents front) (hsecond : Contents raw) :
    Contents (front ++ raw) := by
  induction hfirst with
  | nil => exact hsecond
  | escape mark _ ih => exact .escape mark ih
  | plain hnoQuote hnoBackslash _ ih => exact .plain hnoQuote hnoBackslash ih

/-- An item is a backslash with a character, or a character that is no mark of a literal. -/
theorem Matches.stringItem_inv (hfound : Matches .token .stringItem cursor nodes next) :
    ∃ item, Contents item ∧ cursor.rest = item ++ next.rest := by
  cases hfound with
  | altFirst hinside =>
    obtain ⟨_, middle, _, hbackslash, htaken⟩ := hinside.seq_inv
    have hfront := Cursor.rest_of_word? hbackslash.word_inv
    obtain ⟨c, rest, hrest, -, rfl⟩ := Cursor.take?_eq_some_iff.mp htaken.anything_inv
    replace hrest : middle.rest = c :: rest := hrest
    rw [hrest] at hfront
    exact ⟨['\\', c], .escape c .nil, hfront⟩
  | altSecond hinside =>
    obtain ⟨_, middle, _, habsent, htaken⟩ := hinside.seq_inv
    obtain ⟨rfl, call, limit, attempts, after, hrefused⟩ := habsent.absent_inv
    obtain ⟨c, rest, hrest, -, rfl⟩ := Cursor.take?_eq_some_iff.mp htaken.anything_inv
    replace hrest : middle.rest = c :: rest := hrest
    have hplain : c ≠ '"' ∧ c ≠ '\\' := by
      constructor <;> rintro rfl <;>
        simp [Pattern.read, Pattern.text, Cursor.word?, Cursor.take?, hrest] at hrefused
    exact ⟨[c], .plain hplain.1 hplain.2 .nil, hrest⟩

/-- What the inside of a literal takes is made of items. -/
theorem Matches.stringContent_inv {mode : Mode} {pattern : Pattern}
    (hfound : Matches mode pattern cursor nodes next) (htoken : mode = .token)
    (hitems : pattern = .many .stringItem) :
    ∃ raw, Contents raw ∧ cursor.rest = raw ++ next.rest := by
  induction hfound with
  | manyNone => exact ⟨[], .nil, rfl⟩
  | manyFirst hinside =>
    cases hitems
    subst htoken
    exact hinside.stringItem_inv
  | manyNext hsofar hround ih =>
    cases hitems
    subst htoken
    obtain ⟨raw, hraw, hrest⟩ := ih rfl rfl
    obtain ⟨item, hitem, hnext⟩ := hround.stringItem_inv
    refine ⟨raw ++ item, hraw.append hitem, ?_⟩
    rw [hrest, List.append_assoc, ← hnext]
    rfl
  | _ => contradiction

end Strings

section Numbers

open Pattern

variable {text : List Char}

/-- What digits are read from are digits. -/
theorem isDigits_of_spells (hspells : (oneOrMore digit).Spells text) : IsDigits text := by
  obtain ⟨_, _, ⟨c, hlow, hhigh, rfl⟩, ⟨rounds, hrounds, rfl⟩, rfl⟩ := hspells
  have hdigit (c : Char) (hlow : '0' ≤ c) (hhigh : c ≤ '9') : c.isDigit := by
    simp only [Char.isDigit, Bool.and_eq_true, decide_eq_true_eq]
    exact ⟨hlow, hhigh⟩
  refine ⟨by simp, ?_⟩
  simp only [List.singleton_append, List.mem_cons, forall_eq_or_imp, List.mem_flatten]
  refine ⟨hdigit c hlow hhigh, ?_⟩
  rintro c' ⟨round, hround, hmem⟩
  obtain ⟨c, hlow, hhigh, rfl⟩ := hrounds round hround
  rw [List.mem_singleton.mp hmem]
  exact hdigit c hlow hhigh

/-- Every text of a number literal denotes a number. -/
theorem isSome_readNumber?_of_spells (hspells : Rule.number.definition.body.Spells text) :
    (readNumber? text).isSome := by
  obtain ⟨whole, _, hwhole, ⟨fraction, exponent, hfraction, hexponent, rfl⟩, rfl⟩ := hspells
  refine isSome_readNumber? (isDigits_of_spells hwhole) ?_ ?_
  · rcases hfraction with rfl | ⟨_, digits, rfl, hdigits, rfl⟩
    · exact .inl rfl
    · exact .inr ⟨digits, isDigits_of_spells hdigits, rfl⟩
  · rcases hexponent with rfl | ⟨mark, _, hmark, ⟨sign, digits, hsign, hdigits, rfl⟩, rfl⟩
    · exact .inl rfl
    · right
      have hsigned : sign ∈ [[], ['+'], ['-']] := by
        rcases hsign with rfl | rfl | rfl <;> decide
      rcases hmark with rfl | rfl
      · exact ⟨'e', by simp, sign, hsigned, digits, isDigits_of_spells hdigits, rfl⟩
      · exact ⟨'E', by simp, sign, hsigned, digits, isDigits_of_spells hdigits, rfl⟩

end Numbers

end Kestrel
