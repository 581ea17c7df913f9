import Kestrel.Proofs.Number.Index
import Kestrel.Proofs.Number.Shortest
import Mathlib.Data.Rat.Floor

/-!
# Indices as exact numbers

An index is a double without its fraction. In terms of the exact number that a double is, it denotes
an element if it lies in the range of places or, counted from the end, of their negatives. The
bounds of a slice are places between elements, whatever they are given as.
-/

namespace Kestrel

/-- A number without its fraction: the whole number next to it, on the side of zero. -/
def truncation (number : ℚ) : ℤ := if 0 ≤ number then ⌊number⌋ else ⌈number⌉

/-- A number and its negative are alike without their fractions. -/
theorem truncation_neg (number : ℚ) : truncation (-number) = -truncation number := by
  unfold truncation
  rcases lt_trichotomy number 0 with hneg | rfl | hpos
  · rw [if_pos (by linarith), if_neg (by linarith), Int.floor_neg]
  · simp
  · rw [if_neg (by linarith), if_pos hpos.le, Int.ceil_neg]

namespace Binary

/-- The exact number that a double is, unless it is infinite or not a number. -/
def value? : Binary → Option ℚ
  | finite negative mantissa exponent =>
    some (if negative then -(mantissa * 2 ^ exponent) else mantissa * 2 ^ exponent)
  | _ => none

/-- The whole part of a number that is not negative is the number without its fraction. -/
theorem whole_eq_truncation (mantissa : Nat) (exponent : Int) :
    (whole mantissa exponent : ℤ) = truncation (mantissa * 2 ^ exponent) := by
  unfold truncation whole twoTo
  rw [if_pos (by positivity)]
  have hsplit : (mantissa * 2 ^ exponent : ℚ) =
      ((mantissa * 2 ^ exponent.toNat : Nat) : ℚ) / ((2 ^ (-exponent).toNat : Nat) : ℚ) := by
    rw [eq_div_iff (by positivity), Nat.cast_mul, natPow_toNat 2 (by decide) exponent,
      mul_assoc]
    rfl
  rw [hsplit, Rat.floor_natCast_div_natCast]
  rfl

variable {number : Nat}

/-- The distance between doubles is not zero. -/
theorem spacing_pos (number : Nat) : 0 < spacing number := Nat.pow_pos (by decide)

/-- A whole number that is a double is not rounded. -/
theorem nearest_of_isDouble (hdouble : IsDouble number) : nearest number = number := by
  have hdvd := spacing_dvd_of_le hdouble (Nat.le_refl number)
  have hunit := spacing_pos number
  unfold nearest
  dsimp only
  rw [Nat.mod_eq_zero_of_dvd hdvd, if_pos (.inl (by omega)), Nat.div_mul_cancel hdvd]

/-- The whole numbers up to the power of two that has one bit more than a mantissa are doubles. -/
theorem isDouble_of_le (hle : number ≤ 2 ^ 53) : IsDouble number := by
  by_cases hlast : number = 2 ^ 53
  · exact ⟨2 ^ 52, 1, by decide, hlast⟩
  · exact ⟨number, 0, by omega, by simp⟩

/-- What is not zero is not rounded to zero. -/
theorem nearest_pos (hpos : 0 < number) : 0 < nearest number := by
  have hunit := spacing_pos number
  have hle : spacing number ≤ number := by
    refine Nat.le_trans ?_ (Nat.log2_self_le hpos.ne')
    exact Nat.pow_le_pow_right (by decide) (Nat.sub_le _ _)
  have hplace : 0 < number / spacing number := Nat.div_pos hle hunit
  unfold nearest
  dsimp only
  split
  · exact Nat.mul_pos hplace hunit
  · exact Nat.mul_pos (Nat.succ_pos _) hunit

end Binary

open Binary

/-- The index that a number stands for is the exact number without its fraction. -/
theorem IndexNumber.ofFloat_eq_at_iff {x : Float} {index : Int} :
    IndexNumber.ofFloat x = .at index ↔
      ∃ number, (Binary.ofFloat x).value? = some number ∧ truncation number = index := by
  unfold IndexNumber.ofFloat
  cases Binary.ofFloat x with
  | nan => simp [value?]
  | infinite negative => cases negative <;> simp [value?]
  | finite negative mantissa exponent =>
    have hwhole := whole_eq_truncation mantissa exponent
    cases negative with
    | false => simp [value?, ← hwhole]
    | true => simp [value?, truncation_neg, ← hwhole]

section Places

variable {length : Nat} {index : Int}

/-- Counting from the end of so few elements is exact for the places that are there, and other
negative numbers stay negative. -/
theorem fromEnd_of_neg (hlength : length ≤ 2 ^ 53) (hneg : index < 0) :
    fromEnd index length = length + index ∨ fromEnd index length < 0 ∧ length + index < 0 := by
  unfold fromEnd
  rw [if_pos hneg, nearest_of_isDouble (isDouble_of_le hlength)]
  unfold sum
  split
  · next hsum =>
    left
    have hexact : IsDouble (index + length).natAbs := isDouble_of_le (by omega)
    rw [nearest_of_isDouble hexact]
    omega
  · next hsum =>
    right
    have hpos : 0 < nearest (index + length).natAbs := nearest_pos (by omega)
    omega

/-- Of up to so many elements, a number denotes one if it is, without its fraction, the place of the
element or the place counted from the end. -/
theorem resolveIndex_eq_ok_iff (hlength : length ≤ 2 ^ 53) (x : Float) (place : Nat) :
    resolveIndex x length = .ok place ↔ ∃ number, (Binary.ofFloat x).value? = some number ∧
      -(length : Int) ≤ truncation number ∧ truncation number < length ∧
      (place : Int) =
        if truncation number < 0 then length + truncation number else truncation number := by
  have hnearest := nearest_of_isDouble (isDouble_of_le hlength)
  unfold resolveIndex
  cases hindex : IndexNumber.ofFloat x with
  | «at» index =>
    obtain ⟨number, hnumber, rfl⟩ := IndexNumber.ofFloat_eq_at_iff.mp hindex
    simp only [hnumber, Option.some.injEq, exists_eq_left', hnearest]
    by_cases hneg : truncation number < 0
    · have hplace := fromEnd_of_neg hlength hneg
      rw [if_pos hneg]
      split
      · rw [Except.ok.injEq]
        omega
      · simp only [reduceCtorEq, false_iff]
        omega
    · have hplace : fromEnd (truncation number) length = truncation number := if_neg hneg
      rw [if_neg hneg, hplace]
      split
      · rw [Except.ok.injEq]
        omega
      · simp only [reduceCtorEq, false_iff]
        omega
  | _ =>
    simp only [reduceCtorEq, false_iff]
    rintro ⟨number, hnumber, -⟩
    have hat := IndexNumber.ofFloat_eq_at_iff.mpr ⟨number, hnumber, rfl⟩
    rw [hindex] at hat
    cases hat

/-- A bound of a slice is a place between elements or after the last one. -/
theorem resolveBound_le (bound : Float) (length : Nat) : resolveBound bound length ≤ length := by
  unfold resolveBound
  cases hindex : IndexNumber.ofFloat bound with
  | «at» index =>
    dsimp only
    split
    · next hlt =>
      have hdouble := isDouble_fromEnd (IndexNumber.isDouble_of_ofFloat hindex) length
      by_contra hbeyond
      have habs : (fromEnd index length).natAbs = (fromEnd index length).toNat := by omega
      rw [habs] at hdouble
      have hle := nearest_le_of_le hdouble (Nat.le_of_not_le hbeyond)
      omega
    · exact Nat.le_refl _
  | nan => exact Nat.zero_le _
  | beforeAll => exact Nat.zero_le _
  | afterAll => exact Nat.le_refl _

/-- The bounds of a slice lie in order among the elements. -/
theorem sliceRange_le (start : Float) (stop? : Option Float) (length : Nat) :
    (sliceRange start stop? length).1 ≤ (sliceRange start stop? length).2 ∧
      (sliceRange start stop? length).2 ≤ length := by
  unfold sliceRange
  refine ⟨Nat.le_max_left _ _, Nat.max_le.mpr ⟨resolveBound_le start length, ?_⟩⟩
  cases stop? with
  | none => exact Nat.le_refl _
  | some stop => exact resolveBound_le stop length

/-- A slice that starts at an index starts at the element that the index denotes. -/
theorem resolveBound_of_resolveIndex {x : Float} {place : Nat}
    (hplace : resolveIndex x length = .ok place) : resolveBound x length = place := by
  unfold resolveIndex at hplace
  unfold resolveBound
  cases hindex : IndexNumber.ofFloat x with
  | «at» index =>
    simp only [hindex] at hplace
    split at hplace
    · next hrange =>
      cases hplace
      exact if_pos hrange.2
    · cases hplace
  | _ => simp [hindex] at hplace

/-- A slice that starts at zero starts at the first element. -/
theorem resolveBound_zero (length : Nat) : resolveBound 0 length = 0 := by
  have hzero : IndexNumber.ofFloat 0 = .at 0 := by decide +kernel
  unfold resolveBound
  rw [hzero]
  change (if (0 : Int) < nearest length then 0 else length) = 0
  split
  · rfl
  · next hle =>
    by_contra hpos
    have hnearest := nearest_pos (Nat.pos_of_ne_zero hpos)
    omega

/-- A slice up to a bound and one from there on are next to each other, and take in everything. -/
theorem sliceRange_split (bound : Float) (length : Nat) :
    sliceRange 0 (some bound) length = (0, resolveBound bound length) ∧
      sliceRange bound none length = (resolveBound bound length, length) := by
  unfold sliceRange
  dsimp only
  rw [resolveBound_zero, Nat.zero_max, Nat.max_eq_right (resolveBound_le bound length)]
  exact ⟨rfl, rfl⟩

end Places

end Kestrel
