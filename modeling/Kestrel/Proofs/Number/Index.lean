import Kestrel.Number.Index
import Mathlib.Algebra.Group.Nat.Defs
import Mathlib.Tactic.ByContra
import Mathlib.Tactic.SplitIfs

/-!
# Places that indices denote

Lengths are rounded to doubles before an index is compared with them. This makes no difference to
what an index may denote: a double that is less than the rounded length is less than the length, for
rounding passes over no double.
-/

namespace Kestrel

namespace Binary

/-- A whole number that is a double. -/
def IsDouble (number : Nat) : Prop :=
  ∃ mantissa exponent, mantissa < 2 ^ 53 ∧ number = mantissa * 2 ^ exponent

variable {number double : Nat}

/-- The distance between the doubles around a number is a power of two, which divides all doubles
that are not less than the number. -/
theorem spacing_dvd_of_le (hdouble : IsDouble double) (hle : number ≤ double) :
    spacing number ∣ double := by
  obtain ⟨mantissa, exponent, hmantissa, rfl⟩ := hdouble
  by_cases hfine : number.log2 ≤ fractionBits
  · have hone : spacing number = 1 := by
      simp [spacing, Nat.sub_eq_zero_of_le hfine, twoTo]
    rw [hone]
    exact Nat.one_dvd _
  · have hnumber : 2 ^ number.log2 ≤ number := by
      apply Nat.log2_self_le
      rintro rfl
      exact hfine (Nat.zero_le _)
    have hexponent : number.log2 - fractionBits ≤ exponent := by
      by_contra hless
      have hsmall : mantissa * 2 ^ exponent < 2 ^ number.log2 := by
        calc mantissa * 2 ^ exponent
            < 2 ^ 53 * 2 ^ exponent := Nat.mul_lt_mul_of_pos_right hmantissa (Nat.two_pow_pos _)
          _ = 2 ^ (53 + exponent) := (Nat.pow_add 2 53 exponent).symm
          _ ≤ 2 ^ number.log2 := by
              apply Nat.pow_le_pow_right (by decide)
              unfold fractionBits at hfine hless
              omega
      omega
    exact Nat.dvd_mul_left_of_dvd (Nat.pow_dvd_pow 2 hexponent) mantissa

/-- Rounding passes over no double. -/
theorem nearest_le_of_le (hdouble : IsDouble double) (hle : number ≤ double) :
    nearest number ≤ double := by
  obtain ⟨place, hplace⟩ := spacing_dvd_of_le hdouble hle
  have hunit : 0 < spacing number := Nat.pow_pos (by decide)
  have hsplit := Nat.div_add_mod number (spacing number)
  have hfloor : number / spacing number ≤ place := by
    apply Nat.div_le_of_le_mul
    omega
  unfold nearest
  dsimp only
  rw [hplace, Nat.mul_comm (spacing number) place]
  split
  · exact Nat.mul_le_mul_right _ hfloor
  · next hup =>
    -- the number is rounded up, so it is not a multiple of the distance
    have hne : number / spacing number ≠ place := by
      rintro heq
      rw [heq] at hsplit
      omega
    apply Nat.mul_le_mul_right
    omega

/-- A rounded number is a double. -/
theorem isDouble_nearest (number : Nat) : IsDouble (nearest number) := by
  have hnumber : number < 2 ^ (number.log2 + 1) := Nat.lt_log2_self
  have hplace : number / spacing number < 2 ^ 53 := by
    apply Nat.div_lt_of_lt_mul
    calc number
        < 2 ^ (number.log2 + 1) := hnumber
      _ ≤ 2 ^ ((number.log2 - fractionBits) + 53) := by
          apply Nat.pow_le_pow_right (by decide)
          unfold fractionBits
          omega
      _ = spacing number * 2 ^ 53 := Nat.pow_add 2 _ _
  unfold nearest
  dsimp only
  split
  · exact ⟨_, _, hplace, rfl⟩
  · by_cases hlast : number / spacing number + 1 < 2 ^ 53
    · exact ⟨_, _, hlast, rfl⟩
    · have hnext : number / spacing number + 1 = 2 ^ 52 * 2 := by omega
      refine ⟨2 ^ 52, (number.log2 - fractionBits) + 1, by decide, ?_⟩
      rw [hnext, Nat.pow_succ, Nat.mul_assoc, Nat.mul_comm 2]
      rfl

/-- The whole part of a double is a double. -/
theorem isDouble_whole {mantissa : Nat} (hmantissa : mantissa < 2 ^ 53) (exponent : Int) :
    IsDouble (whole mantissa exponent) := by
  unfold whole twoTo
  by_cases hexponent : 0 ≤ exponent
  · refine ⟨mantissa, exponent.toNat, hmantissa, ?_⟩
    rw [Int.toNat_of_nonpos (show -exponent ≤ 0 by omega)]
    exact Nat.div_one _
  · refine ⟨mantissa / 2 ^ (-exponent).toNat, 0, ?_, ?_⟩
    · exact Nat.lt_of_le_of_lt (Nat.div_le_self _ _) hmantissa
    · rw [Int.toNat_of_nonpos (show exponent ≤ 0 by omega)]
      simp

/-- The mantissa of a number has 53 bits. -/
theorem mantissa_lt_of_ofFloat {x : Float} {negative : Bool} {mantissa : Nat} {exponent : Int}
    (hfinite : ofFloat x = .finite negative mantissa exponent) : mantissa < 2 ^ 53 := by
  have hfraction : x.toBits.toNat % twoTo fractionBits < 2 ^ 52 := Nat.mod_lt _ (by decide)
  have hleading : twoTo fractionBits = 2 ^ 52 := rfl
  unfold ofFloat ofBits at hfinite
  dsimp only at hfinite
  split_ifs at hfinite <;> cases hfinite <;> omega

end Binary

open Binary

/-- The index that a number stands for is a double. -/
theorem IndexNumber.isDouble_of_ofFloat {x : Float} {index : Int}
    (hindex : IndexNumber.ofFloat x = .at index) : IsDouble index.natAbs := by
  unfold IndexNumber.ofFloat at hindex
  cases hvalue : Binary.ofFloat x with
  | nan => simp [hvalue] at hindex
  | infinite negative => cases negative <;> simp [hvalue] at hindex
  | finite negative mantissa exponent =>
    have hwhole := isDouble_whole (mantissa_lt_of_ofFloat hvalue) exponent
    cases negative <;> simp [hvalue] at hindex <;> subst hindex <;> simpa using hwhole

/-- An index that is counted from the end is a double. -/
theorem isDouble_fromEnd {index : Int} (hindex : IsDouble index.natAbs) (length : Nat) :
    IsDouble (fromEnd index length).natAbs := by
  unfold fromEnd
  split
  · unfold sum
    split <;> simpa using isDouble_nearest _
  · exact hindex

/-- What an index denotes is there, however many elements there are. -/
theorem lt_of_resolveIndex {index : Float} {length place : Nat}
    (hplace : resolveIndex index length = .ok place) : place < length := by
  unfold resolveIndex at hplace
  cases hnumber : IndexNumber.ofFloat index with
  | «at» whole =>
    have hdouble := isDouble_fromEnd (IndexNumber.isDouble_of_ofFloat hnumber) length
    simp only [hnumber] at hplace
    split_ifs at hplace with hrange
    cases hplace
    have habs : (fromEnd whole length).natAbs = (fromEnd whole length).toNat := by omega
    rw [habs] at hdouble
    by_contra hbeyond
    have hnearest := nearest_le_of_le hdouble (Nat.le_of_not_lt hbeyond)
    omega
  | _ => simp [hnumber] at hplace

end Kestrel
