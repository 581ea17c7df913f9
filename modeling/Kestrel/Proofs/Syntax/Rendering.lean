import Kestrel.Proofs.Text.Quoted
import Kestrel.Syntax.Sexpr

/-!
# S-expressions are known by their texts

An S-expression of words, quoted texts and lists is known from a text that it begins, and so is what
follows it there. Rows and lists on lines are told apart by what stands before their items.
-/

namespace Kestrel

namespace Sexpr

/-- Characters that no word is made of: those between items, and the quote. -/
def marks : List Char := [' ', '\n', '(', ')', '"']

/-- Characters that words are made of. -/
def isWordChar (c : Char) : Bool := !marks.contains c

/-- Words may be made of every character of a kind that no mark is of. -/
theorem isWordChar_of_kind {kind : Char → Bool} (hmarks : marks.any kind = false) {c : Char}
    (hc : kind c) : isWordChar c := by
  rw [isWordChar, Bool.not_eq_true', List.contains_eq_mem, decide_eq_false_iff_not]
  intro hmark
  exact List.any_eq_false.mp hmarks c hmark hc

/-- A text that stands as an item as it is. -/
structure IsWord (text : String) : Prop where
  nonempty : text ≠ ""
  made : ∀ c ∈ text.toList, isWordChar c

/-- Words, quoted texts, and lists of these. A list on lines has a word as its head and at least one
item, as without items it would be a row. -/
inductive Proper : Sexpr → Prop
  | word {text : String} (hword : IsWord text) : Proper (.atom text)
  | quoted (text : String) : Proper (.atom (quoted text))
  | row {items : List Sexpr} (hinside : ∀ item ∈ items, item.Proper) : Proper (.row items)
  | lines {head : String} {indent : Nat} {items : List Sexpr} (hword : IsWord head)
      (hnonempty : items ≠ []) (hinside : ∀ item ∈ items, item.Proper) :
      Proper (.lines head indent items)

/-- What may follow an item: the end of the text, a separator or the end of a list. -/
def Ends (rest : List Char) : Prop := ∀ c ∈ rest.head?, c = ' ' ∨ c = '\n' ∨ c = ')'

section Front

variable {text : String} {s : Sexpr} {rest rest' : List Char}

/-- A word ends at a space. -/
theorem ends_space : Ends (' ' :: rest) := by
  rintro _ ⟨⟩
  exact .inl rfl

/-- A word ends at the end of a line. -/
theorem ends_line : Ends ('\n' :: rest) := by
  rintro _ ⟨⟩
  exact .inr (.inl rfl)

/-- A word ends at a closing bracket. -/
theorem ends_close : Ends (')' :: rest) := by
  rintro _ ⟨⟩
  exact .inr (.inr rfl)

/-- The rest of a row is separated from the item before it. -/
theorem ends_renderRow (items : List Sexpr) (rest : List Char) :
    Ends (renderRow items ++ rest) := by
  cases items with
  | nil => exact ends_close
  | cons item others => exact ends_space

/-- The rest of a list on lines is separated from the item before it. -/
theorem ends_renderLines (indent : Nat) (items : List Sexpr) (rest : List Char) :
    Ends (renderLines indent items ++ rest) := by
  cases items with
  | nil => exact ends_close
  | cons item others => exact ends_line

/-- A word starts with a character of words. -/
theorem IsWord.exists_cons (hword : IsWord text) :
    ∃ c others, text.toList = c :: others ∧ isWordChar c := by
  obtain ⟨c, others, hletters⟩ := List.exists_cons_of_ne_nil
    (show text.toList ≠ [] by simpa using hword.nonempty)
  exact ⟨c, others, hletters, hword.made c (by simp [hletters])⟩

/-- What an S-expression begins with: a letter of a word, a quote or a parenthesis. -/
theorem Proper.exists_cons (hproper : s.Proper) : ∃ c others, s.render = c :: others ∧
    (isWordChar c ∨ c = '"' ∨ c = '(') := by
  cases hproper with
  | word hword =>
    obtain ⟨c, others, hletters, hc⟩ := hword.exists_cons
    exact ⟨c, others, hletters, .inl hc⟩
  | quoted text => exact ⟨'"', _, String.toList_ofList, .inr (.inl rfl)⟩
  | @row items _ =>
    cases items with
    | nil => exact ⟨'(', [')'], rfl, .inr (.inr rfl)⟩
    | cons item others => exact ⟨'(', _, rfl, .inr (.inr rfl)⟩
  | lines _ _ _ => exact ⟨'(', _, rfl, .inr (.inr rfl)⟩

/-- A word at the front of a text is known from it. -/
theorem render_word_inj (hword : IsWord text) (hproper : s.Proper) (hrest : Ends rest)
    (hrest' : Ends rest') (hsame : text.toList ++ rest = s.render ++ rest') :
    s = .atom text ∧ rest = rest' := by
  have hends (after : List Char) (hafter : Ends after) :
      ∀ c ∈ after.head?, isWordChar c = false := by
    intro c hc
    rcases hafter c hc with rfl | rfl | rfl <;> rfl
  obtain ⟨c, others, hletters, hc⟩ := hword.exists_cons
  have hother (d : Char) (after : List Char) (hd : isWordChar d = false) :
      text.toList ++ rest ≠ d :: after := by
    intro hfront
    rw [hletters] at hfront
    rw [← (List.cons.inj hfront).1, hc] at hd
    cases hd
  cases hproper with
  | word hword' =>
    obtain ⟨htexts, hrest⟩ :=
      front_append_inj hword.made hword'.made (hends rest hrest) (hends rest' hrest') hsame
    exact ⟨congrArg atom (String.toList_inj.mp htexts).symm, hrest⟩
  | quoted text' =>
    refine absurd hsame ?_
    rw [render, quoted, String.toList_ofList, List.cons_append]
    exact hother '"' _ rfl
  | @row items _ =>
    cases items with
    | nil => exact absurd hsame (hother '(' _ rfl)
    | cons item others => exact absurd hsame (hother '(' _ rfl)
  | lines _ _ _ => exact absurd hsame (hother '(' _ rfl)

end Front

/-- An S-expression is known from every text that it begins, with what follows. -/
def Known (s : Sexpr) : Prop := ∀ (t : Sexpr) (rest rest' : List Char), t.Proper → Ends rest →
  Ends rest' → s.render ++ rest = t.render ++ rest' → s = t ∧ rest = rest'

section Lists

variable {items items' : List Sexpr} {rest rest' : List Char}

/-- The items of a row are known if each of them is. -/
theorem renderRow_inj (hknown : ∀ item ∈ items, item.Known) (hproper : ∀ item ∈ items', item.Proper)
    (hsame : renderRow items ++ rest = renderRow items' ++ rest') :
    items = items' ∧ rest = rest' := by
  induction items generalizing items' with
  | nil =>
    cases items' with
    | nil => exact ⟨rfl, (List.cons.inj hsame).2⟩
    | cons item' others' => exact absurd (List.cons.inj hsame).1 (by decide)
  | cons item others ih =>
    cases items' with
    | nil => exact absurd (List.cons.inj hsame).1 (by decide)
    | cons item' others' =>
      rw [renderRow, renderRow, List.cons_append, List.cons_append, List.append_assoc,
        List.append_assoc] at hsame
      obtain ⟨rfl, hothers⟩ := hknown item (by simp) item' _ _ (hproper item' (by simp))
        (ends_renderRow others rest) (ends_renderRow others' rest') (List.cons.inj hsame).2
      obtain ⟨rfl, hrest⟩ := ih (fun item hitem => hknown item (by simp [hitem]))
        (fun item hitem => hproper item (by simp [hitem])) hothers
      exact ⟨rfl, hrest⟩

/-- The items of a list on lines are known if each of them is, and so is how far they are
indented. -/
theorem renderLines_inj {indent indent' : Nat} (hknown : ∀ item ∈ items, item.Known)
    (hproper : ∀ item ∈ items, item.Proper) (hproper' : ∀ item ∈ items', item.Proper)
    (hsame : renderLines indent items ++ rest = renderLines indent' items' ++ rest') :
    items = items' ∧ rest = rest' ∧ (items ≠ [] → indent = indent') := by
  induction items generalizing items' with
  | nil =>
    cases items' with
    | nil => exact ⟨rfl, (List.cons.inj hsame).2, fun hne => absurd rfl hne⟩
    | cons item' others' => exact absurd (List.cons.inj hsame).1 (by decide)
  | cons item others ih =>
    cases items' with
    | nil => exact absurd (List.cons.inj hsame).1 (by decide)
    | cons item' others' =>
      rw [renderLines, renderLines, List.cons_append, List.cons_append, List.append_assoc,
        List.append_assoc, List.append_assoc, List.append_assoc] at hsame
      have hblanks (count : Nat) : ∀ c ∈ List.replicate count ' ', (c == ' ') = true := by
        intro c hc
        rw [List.eq_of_mem_replicate hc]
        rfl
      have hitem {first : Sexpr} (after : List Char) (hfirst : first.Proper) :
          ∀ c ∈ (first.render ++ after).head?, (c == ' ') = false := by
        obtain ⟨d, letters, hletters, hd⟩ := hfirst.exists_cons
        rw [hletters]
        rintro _ ⟨⟩
        rw [beq_eq_false_iff_ne]
        rintro rfl
        revert hd
        decide
      obtain ⟨hindent, hitems⟩ := front_append_inj (hblanks indent) (hblanks indent')
        (hitem _ (hproper item (by simp))) (hitem _ (hproper' item' (by simp)))
        (List.cons.inj hsame).2
      obtain ⟨rfl, hothers⟩ := hknown item (by simp) item' _ _ (hproper' item' (by simp))
        (ends_renderLines indent others rest) (ends_renderLines indent' others' rest') hitems
      obtain ⟨rfl, hrest, -⟩ := ih (fun item hitem => hknown item (by simp [hitem]))
        (fun item hitem => hproper item (by simp [hitem]))
        (fun item hitem => hproper' item (by simp [hitem])) hothers
      exact ⟨rfl, hrest, fun _ => by simpa using congrArg List.length hindent⟩

end Lists

section Starts

variable {items items' : List Sexpr} {rest rest' : List Char}

/-- An item does not begin with the end of a list. -/
theorem Proper.render_ne_close {s : Sexpr} (hproper : s.Proper) (rest rest' : List Char) :
    s.render ++ rest ≠ ')' :: rest' := by
  obtain ⟨c, others, hletters, hc⟩ := hproper.exists_cons
  rw [hletters]
  intro hsame
  rw [(List.cons.inj hsame).1] at hc
  revert hc
  decide

/-- A quoted text is no list. -/
theorem quoted_ne_open (text : String) (rest rest' : List Char) :
    (quoted text).toList ++ rest ≠ '(' :: rest' := by
  rw [quoted, String.toList_ofList]
  exact fun hsame => absurd (List.cons.inj hsame).1 (by decide)

/-- A row and a list on lines differ in what stands before an item. -/
theorem row_ne_lines {head : String} (hword : IsWord head) (indent : Nat) (hnonempty : items' ≠ [])
    (hinside : ∀ item ∈ items, item.Proper) :
    (row items).render ++ rest ≠ (lines head indent items').render ++ rest' := by
  intro hsame
  cases items with
  | nil =>
    have hclose : head.toList ++ (renderLines indent items' ++ rest') = ')' :: rest := by
      simpa [render] using hsame.symm
    exact (Proper.word hword).render_ne_close _ _ hclose
  | cons first others =>
    have hfirst : head.toList ++ (renderLines indent items' ++ rest') =
        first.render ++ (renderRow others ++ rest) := by
      simpa [render] using hsame.symm
    obtain ⟨-, hothers⟩ := render_word_inj hword (hinside first (by simp))
      (ends_renderLines _ _ _) (ends_renderRow _ _) hfirst
    obtain ⟨item, more, rfl⟩ := List.exists_cons_of_ne_nil hnonempty
    cases others with
    | nil => exact absurd (List.cons.inj hothers).1 (by decide)
    | cons next others => exact absurd (List.cons.inj hothers).1 (by decide)

end Starts

/-- Words, quoted texts and their lists are known from every text that they begin. -/
theorem Proper.known {s : Sexpr} (hproper : s.Proper) : s.Known := by
  induction hproper with
  | word hword =>
    intro t rest rest' hproper' hrest hrest' hsame
    obtain ⟨rfl, hrest⟩ := render_word_inj hword hproper' hrest hrest' hsame
    exact ⟨rfl, hrest⟩
  | quoted text =>
    intro t rest rest' hproper' hrest hrest' hsame
    cases hproper' with
    | word hword' =>
      obtain ⟨hatoms, hrest⟩ := render_word_inj hword' (.quoted text) hrest' hrest hsame.symm
      exact ⟨hatoms, hrest.symm⟩
    | quoted text' =>
      obtain ⟨rfl, hrest⟩ := quoted_append_inj hsame
      exact ⟨rfl, hrest⟩
    | @row items' _ => cases items' <;> exact absurd hsame (quoted_ne_open _ _ _)
    | lines _ _ _ => exact absurd hsame (quoted_ne_open _ _ _)
  | @row items hinside ih =>
    intro t rest rest' hproper' hrest hrest' hsame
    cases hproper' with
    | word hword' =>
      obtain ⟨hatoms, hrest⟩ := render_word_inj hword' (.row hinside) hrest' hrest hsame.symm
      exact ⟨hatoms, hrest.symm⟩
    | quoted text' => cases items <;> exact absurd hsame.symm (quoted_ne_open _ _ _)
    | @row items' hinside' =>
      cases items with
      | nil =>
        cases items' with
        | nil => exact ⟨rfl, (List.cons.inj (List.cons.inj hsame).2).2⟩
        | cons first' others' =>
          have hclose : first'.render ++ (renderRow others' ++ rest') = ')' :: rest := by
            simpa [render] using hsame.symm
          exact absurd hclose ((hinside' first' (by simp)).render_ne_close _ _)
      | cons first others =>
        cases items' with
        | nil =>
          have hclose : first.render ++ (renderRow others ++ rest) = ')' :: rest' := by
            simpa [render] using hsame
          exact absurd hclose ((hinside first (by simp)).render_ne_close _ _)
        | cons first' others' =>
          have hfirst : first.render ++ (renderRow others ++ rest) =
              first'.render ++ (renderRow others' ++ rest') := by
            simpa [render] using hsame
          obtain ⟨rfl, hothers⟩ := ih first (by simp) first' _ _ (hinside' first' (by simp))
            (ends_renderRow _ _) (ends_renderRow _ _) hfirst
          obtain ⟨rfl, hrest⟩ := renderRow_inj (fun item hitem => ih item (by simp [hitem]))
            (fun item hitem => hinside' item (by simp [hitem])) hothers
          exact ⟨rfl, hrest⟩
    | lines hword' hnonempty' _ => exact absurd hsame (row_ne_lines hword' _ hnonempty' hinside)
  | @lines head indent items hword hnonempty hinside ih =>
    intro t rest rest' hproper' hrest hrest' hsame
    cases hproper' with
    | word hword' =>
      obtain ⟨hatoms, hrest⟩ :=
        render_word_inj hword' (.lines hword hnonempty hinside) hrest' hrest hsame.symm
      exact ⟨hatoms, hrest.symm⟩
    | quoted text' => exact absurd hsame.symm (quoted_ne_open _ _ _)
    | row hinside' => exact absurd hsame.symm (row_ne_lines hword _ hnonempty hinside')
    | @lines head' indent' items' hword' hnonempty' hinside' =>
      have hheads : head.toList ++ (renderLines indent items ++ rest) =
          head'.toList ++ (renderLines indent' items' ++ rest') := by
        simpa [render] using hsame
      obtain ⟨hatoms, hitems⟩ := render_word_inj hword (.word hword') (ends_renderLines _ _ _)
        (ends_renderLines _ _ _) hheads
      obtain ⟨rfl, hrest, hindent⟩ := renderLines_inj ih hinside hinside' hitems
      cases hatoms
      rw [hindent hnonempty]
      exact ⟨rfl, hrest⟩

/-- Words, quoted texts and their lists are known from their texts. -/
theorem render_injective {s t : Sexpr} (hproper : s.Proper) (hproper' : t.Proper)
    (hsame : s.render = t.render) : s = t := by
  have hends : Ends [] := by
    intro c hc
    cases hc
  exact (hproper.known t [] [] hproper' hends hends (congrArg (· ++ []) hsame)).1

end Sexpr

end Kestrel
