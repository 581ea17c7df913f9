import Kestrel.Text.Quoted
import Mathlib.Data.List.Basic

/-!
# Quoted texts are read back

The escapes of two characters do not begin alike, and none begins with a quote. So a quoted text at
the front of a text is known from it, and so is what follows.
-/

namespace Kestrel

/-- A front part of a text is known from it if its characters are of a kind that what follows does
not begin with. -/
theorem front_append_inj {kind : Char → Bool} {first second rest rest' : List Char}
    (hfirst : ∀ c ∈ first, kind c) (hsecond : ∀ c ∈ second, kind c)
    (hrest : ∀ c ∈ rest.head?, kind c = false) (hrest' : ∀ c ∈ rest'.head?, kind c = false)
    (hsame : first ++ rest = second ++ rest') : first = second ∧ rest = rest' := by
  have hspan {front after : List Char} (hfront : ∀ c ∈ front, kind c)
      (hafter : ∀ c ∈ after.head?, kind c = false) : (front ++ after).takeWhile kind = front := by
    rw [List.takeWhile_append_of_pos hfront]
    cases after with
    | nil => simp
    | cons c others => simp [hafter c rfl]
  have hfronts : first = second := by
    rw [← hspan hfirst hrest, hsame, hspan hsecond hrest']
  exact ⟨hfronts, List.append_cancel_left (hfronts ▸ hsame)⟩

section Digits

variable {base n : Nat}

/-- The digits of a number are digits. -/
theorem exists_of_mem_toDigits (hbase : 1 < base) {c : Char} (hc : c ∈ Nat.toDigits base n) :
    ∃ d < base, c = d.digitChar := by
  induction n using Nat.strongRecOn with
  | ind n ih =>
    rw [Nat.toDigits_eq_if hbase] at hc
    split_ifs at hc with hsmall
    · exact ⟨n, hsmall, List.mem_singleton.mp hc⟩
    · rcases List.mem_append.mp hc with hc | hc
      · exact ih (n / base) (Nat.div_lt_self (by omega) hbase) hc
      · exact ⟨n % base, Nat.mod_lt _ (by omega), List.mem_singleton.mp hc⟩

/-- A number is known by its digits in base sixteen. -/
theorem toDigits_sixteen_injective : Function.Injective (Nat.toDigits 16) := by
  have hdigit : ∀ d < 16, ∀ f < 16, d.digitChar = f.digitChar → d = f := by decide
  intro m
  induction m using Nat.strongRecOn with
  | ind m ih =>
    intro n hsame
    have hfirst := Nat.toDigits_eq_if (b := 16) (n := m) (by decide)
    have hsecond := Nat.toDigits_eq_if (b := 16) (n := n) (by decide)
    rw [hfirst, hsecond] at hsame
    have hlength := congrArg List.length hsame
    have hpos (k : Nat) : 0 < (Nat.toDigits 16 k).length := Nat.length_toDigits_pos
    split_ifs at hsame hlength with hm hn hn
    · exact hdigit m hm n hn (List.cons.inj hsame).1
    · have hquotient := hpos (n / 16)
      rw [List.length_append, List.length_singleton, List.length_singleton] at hlength
      omega
    · have hquotient := hpos (m / 16)
      rw [List.length_append, List.length_singleton, List.length_singleton] at hlength
      omega
    · obtain ⟨hfront, hlast⟩ := List.append_inj' hsame rfl
      have hquotient := ih (m / 16) (Nat.div_lt_self (by omega) (by decide)) hfront
      have hrest := hdigit _ (Nat.mod_lt m (by decide)) _ (Nat.mod_lt n (by decide))
        (List.cons.inj hlast).1
      omega

end Digits

namespace Quoted

/-- The characters that are escaped by a mark of their own. -/
def marks : List (Char × Char) :=
  [('\x00', '0'), ('\t', 't'), ('\n', 'n'), ('\r', 'r'), ('"', '"'), ('\\', '\\')]

/-- A character is escaped by its mark or by its code point, or it stands for itself. -/
theorem escape_cases (c : Char) :
    (∃ mark, (c, mark) ∈ marks ∧ escape c = ['\\', mark]) ∨ escape c = codePoint c ∨
      (escape c = [c] ∧ c ≠ '\\' ∧ c ≠ '"') := by
  unfold escape
  split_ifs with hnull htab hfeed hreturn hquote hbackslash hcode
  · exact .inl ⟨'0', by simp [marks, hnull], rfl⟩
  · exact .inl ⟨'t', by simp [marks, htab], rfl⟩
  · exact .inl ⟨'n', by simp [marks, hfeed], rfl⟩
  · exact .inl ⟨'r', by simp [marks, hreturn], rfl⟩
  · exact .inl ⟨'"', by simp [marks, hquote], rfl⟩
  · exact .inl ⟨'\\', by simp [marks, hbackslash], rfl⟩
  · exact .inr (.inl rfl)
  · exact .inr (.inr ⟨rfl, hbackslash, hquote⟩)

/-- A code point at the front of a text is known from it. -/
theorem codePoint_append_inj {c d : Char} {first second : List Char}
    (hsame : codePoint c ++ first = codePoint d ++ second) : c = d ∧ first = second := by
  have hdigit (n : Nat) : ∀ c ∈ Nat.toDigits 16 n, (c != '\x7d') = true := by
    intro c hc
    obtain ⟨digit, -, rfl⟩ := exists_of_mem_toDigits (by decide) hc
    rw [bne_iff_ne]
    exact Nat.digitChar_ne '\x7d' (by decide)
  have hdigits : Nat.toDigits 16 c.toNat ++ '\x7d' :: first =
      Nat.toDigits 16 d.toNat ++ '\x7d' :: second := by
    simpa [codePoint] using hsame
  obtain ⟨hcode, hrest⟩ := front_append_inj (hdigit _) (hdigit _) (by simp) (by simp) hdigits
  exact ⟨Char.toNat_inj.mp (toDigits_sixteen_injective hcode), (List.cons.inj hrest).2⟩

/-- An escaped character at the front of a text is known from it. -/
theorem escape_append_inj {c d : Char} {first second : List Char}
    (hsame : escape c ++ first = escape d ++ second) : c = d ∧ first = second := by
  have hmarks : ∀ left ∈ marks, ∀ right ∈ marks, left.2 = right.2 → left.1 = right.1 := by decide
  have hcode : ∀ left ∈ marks, left.2 ≠ 'u' := by decide
  rcases escape_cases c with ⟨mark, hmark, hc⟩ | hc | ⟨hc, hslash, -⟩ <;>
    rcases escape_cases d with ⟨mark', hmark', hd⟩ | hd | ⟨hd, hslash', -⟩ <;>
    rw [hc, hd] at hsame
  · obtain ⟨hsame, hrest⟩ := List.cons.inj (List.cons.inj hsame).2
    exact ⟨hmarks _ hmark _ hmark' hsame, hrest⟩
  · exact absurd (List.cons.inj (List.cons.inj hsame).2).1 (hcode _ hmark)
  · exact absurd (List.cons.inj hsame).1.symm hslash'
  · exact absurd (List.cons.inj (List.cons.inj hsame).2).1.symm (hcode _ hmark')
  · exact codePoint_append_inj hsame
  · exact absurd (List.cons.inj hsame).1.symm hslash'
  · exact absurd (List.cons.inj hsame).1 hslash
  · exact absurd (List.cons.inj hsame).1 hslash
  · exact List.cons.inj hsame

/-- No escape begins with a quote. -/
theorem escape_append_ne_quote (c : Char) (first second : List Char) :
    escape c ++ first ≠ '"' :: second := by
  rcases escape_cases c with ⟨mark, -, hc⟩ | hc | ⟨hc, -, hquote⟩ <;> rw [hc] <;> intro hsame
  · exact absurd (List.cons.inj hsame).1 (by decide)
  · exact absurd (List.cons.inj hsame).1 (by decide)
  · exact absurd (List.cons.inj hsame).1 hquote

/-- The inside of a quoted text is known from the text that it begins, and so is what follows the
quote at its end. -/
theorem body_append_inj {first second rest rest' : List Char}
    (hsame : body first ++ '"' :: rest = body second ++ '"' :: rest') :
    first = second ∧ rest = rest' := by
  induction first generalizing second with
  | nil =>
    cases second with
    | nil => exact ⟨rfl, (List.cons.inj hsame).2⟩
    | cons d others =>
      rw [body, body, List.flatMap_cons, List.append_assoc] at hsame
      exact absurd hsame.symm (escape_append_ne_quote d _ _)
  | cons c others ih =>
    cases second with
    | nil =>
      rw [body, body, List.flatMap_cons, List.append_assoc] at hsame
      exact absurd hsame (escape_append_ne_quote c _ _)
    | cons d others' =>
      rw [body, body, List.flatMap_cons, List.flatMap_cons, List.append_assoc,
        List.append_assoc] at hsame
      obtain ⟨rfl, hothers⟩ := escape_append_inj hsame
      obtain ⟨rfl, hrest⟩ := ih hothers
      exact ⟨rfl, hrest⟩

end Quoted

/-- A quoted text at the front of a text is known from it, and so is what follows. -/
theorem quoted_append_inj {first second : String} {rest rest' : List Char}
    (hsame : (quoted first).toList ++ rest = (quoted second).toList ++ rest') :
    first = second ∧ rest = rest' := by
  have hbodies : Quoted.body first.toList ++ '"' :: rest =
      Quoted.body second.toList ++ '"' :: rest' := by
    simpa [quoted] using hsame
  obtain ⟨htexts, hrest⟩ := Quoted.body_append_inj hbodies
  exact ⟨String.toList_inj.mp htexts, hrest⟩

/-- A text is known from its quoted form. -/
theorem quoted_injective : Function.Injective quoted := by
  intro first second hsame
  have hlists : (quoted first).toList ++ [] = (quoted second).toList ++ [] := by rw [hsame]
  exact (quoted_append_inj hlists).1

end Kestrel
