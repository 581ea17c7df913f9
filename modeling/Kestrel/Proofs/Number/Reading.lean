import Kestrel.Number.Reading
import Mathlib.Data.List.Basic

/-!
# Texts that are numbers

Digits, perhaps a point with more digits, and perhaps a marked exponent: every such text denotes a
number.
-/

namespace Kestrel

/-- A row of digits, at least one. -/
def IsDigits (text : List Char) : Prop := text ≠ [] ∧ ∀ c ∈ text, c.isDigit

/-- Nothing, or a mark, perhaps a sign, and digits. -/
def IsExponent (text : List Char) : Prop :=
  text = [] ∨ ∃ mark ∈ ['e', 'E'], ∃ sign ∈ [[], ['+'], ['-']], ∃ digits, IsDigits digits ∧
    text = mark :: (sign ++ digits)

/-- Nothing, or a point and digits. -/
def IsFraction (text : List Char) : Prop :=
  text = [] ∨ ∃ digits, IsDigits digits ∧ text = '.' :: digits

variable {text : List Char}

/-- Digits start with a digit. -/
theorem IsDigits.exists_cons (hdigits : IsDigits text) :
    ∃ c more, text = c :: more ∧ c.isDigit := by
  obtain ⟨c, more, rfl⟩ := List.exists_cons_of_ne_nil hdigits.1
  exact ⟨c, more, rfl, hdigits.2 c (by simp)⟩

/-- The digits before something that is no digit are taken off as a whole. -/
theorem IsDigits.span (hdigits : IsDigits text) (rest : List Char)
    (hstops : ∀ c ∈ rest.head?, ¬ c.isDigit) :
    (text ++ rest).takeWhile Char.isDigit = text ∧
      (text ++ rest).dropWhile Char.isDigit = rest := by
  rw [List.takeWhile_append_of_pos hdigits.2, List.dropWhile_append_of_pos hdigits.2]
  cases rest with
  | nil => simp
  | cons c rest =>
    have hc : c.isDigit = false := by simpa using hstops c rfl
    simp [hc]

/-- No digit starts an exponent. -/
theorem IsExponent.stops (hexponent : IsExponent text) :
    ∀ c ∈ text.head?, ¬ c.isDigit ∧ c ≠ '.' := by
  rcases hexponent with rfl | ⟨mark, hmark, _, _, _, _, rfl⟩
  · simp
  · rcases List.mem_pair.mp hmark with rfl | rfl <;> rintro _ ⟨⟩ <;> decide

/-- What is written as an exponent is read as one. -/
theorem IsExponent.isSome_read (hexponent : IsExponent text) : (readExponent? text).isSome := by
  rcases hexponent with rfl | ⟨mark, hmark, sign, hsign, digits, hdigits, rfl⟩
  · rfl
  · have hmarked : (mark != 'e' && mark != 'E') = false := by
      rcases List.mem_pair.mp hmark with rfl | rfl <;> rfl
    have hall : (digits.isEmpty || !digits.all Char.isDigit) = false := by
      simpa [IsDigits] using hdigits
    obtain ⟨c, more, rfl, hc⟩ := hdigits.exists_cons
    -- a digit is no sign, so the digits are taken as they are
    have hunsigned : c ≠ '-' ∧ c ≠ '+' := by
      constructor <;> rintro rfl <;> contradiction
    simp only [List.mem_cons, List.not_mem_nil, or_false] at hsign
    rcases hsign with rfl | rfl | rfl <;>
      simp [-List.isEmpty_cons, -List.all_cons, readExponent?, hmarked, hall, hunsigned]

/-- Digits, a fraction and an exponent make a decimal. -/
theorem isSome_readDecimal? {whole fraction exponent : List Char} (hwhole : IsDigits whole)
    (hfraction : IsFraction fraction) (hexponent : IsExponent exponent) :
    (readDecimal? (whole ++ (fraction ++ exponent))).isSome := by
  have hread := hexponent.isSome_read
  have hstops := hexponent.stops
  have hne : whole.isEmpty = false := by simpa using hwhole.1
  rcases hfraction with rfl | ⟨digits, hdigits, rfl⟩
  · obtain ⟨htake, hdrop⟩ := hwhole.span exponent fun c hc => (hstops c hc).1
    simp only [readDecimal?, List.nil_append, htake, hdrop, hne, Bool.false_and]
    -- what follows is nothing or begins with a mark, so there is no point
    rcases hexponent with rfl | ⟨mark, hmark, _, _, _, _, rfl⟩
    · simpa using hread
    · rcases List.mem_pair.mp hmark with rfl | rfl <;> simpa using hread
  · obtain ⟨htake, hdrop⟩ := hwhole.span ('.' :: (digits ++ exponent)) (by simp)
    obtain ⟨htake', hdrop'⟩ := hdigits.span exponent fun c hc => (hstops c hc).1
    simp [readDecimal?, htake, hdrop, htake', hdrop', hne, hread]

/-- Digits, a fraction and an exponent make a number. -/
theorem isSome_readNumber? {whole fraction exponent : List Char} (hwhole : IsDigits whole)
    (hfraction : IsFraction fraction) (hexponent : IsExponent exponent) :
    (readNumber? (whole ++ (fraction ++ exponent))).isSome := by
  have hread := isSome_readDecimal? hwhole hfraction hexponent
  obtain ⟨c, more, rfl, hc⟩ := hwhole.exists_cons
  have hunsigned : c ≠ '-' ∧ c ≠ '+' := by
    constructor <;> rintro rfl <;> contradiction
  unfold readNumber?
  split
  · exact absurd (List.cons.inj ‹_›).1 hunsigned.1
  · exact absurd (List.cons.inj ‹_›).1 hunsigned.2
  · unfold readMagnitude?
    dsimp only
    split_ifs
    · rfl
    · rfl
    · simpa using hread

end Kestrel
