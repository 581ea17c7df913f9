import Kestrel.Proofs.Number.Exact

/-!
# Counts

The counts of elements that a program sees are doubles. Up to `2 ^ 53` a count is the number itself,
a sum of two counts is exact, and what is less than a count is so as a number too. So counts can be
used as the places that they are.
-/

namespace Kestrel

open Float.Model

/-- A number is a whole number, as a count is. -/
def IsCount (number : Nat) (x : Float) : Prop := WholeForm number x.toModel.unpack

/-- What comes out of a calculation in the form of a whole number is one. -/
theorem isCount_pack {number : Nat} {unpacked : UnpackedFloat} (hform : WholeForm number unpacked)
    (hle : number ≤ 2 ^ 53) : IsCount number ⟨Float.Model.pack unpacked⟩ := by
  change WholeForm number
    (UnpackedFloat.unpack .binary64 (UnpackedFloat.pack .binary64 unpacked))
  rwa [hform.unpack_pack hle]

/-- The sum of counts is exact. -/
theorem IsCount.add {first second : Nat} {x y : Float} (hx : IsCount first x)
    (hy : IsCount second y) (hle : first + second ≤ 2 ^ 53) : IsCount (first + second) (x + y) :=
  isCount_pack (WholeForm.add hx hy (Binary.isDouble_of_le hle)) hle

/-- A count is exact. -/
theorem isCount_ofNat {number : Nat} (hle : number ≤ 2 ^ 53) :
    IsCount number (Float.ofNat number) := by
  have hdouble := Binary.isDouble_of_le hle
  change IsCount number (Float.ofScientific number false 0)
  unfold Float.ofScientific
  by_cases hsmall : number < 2 ^ 53
  · have hbits : number.toUInt64.toNat = number :=
      UInt64.toNat_ofNat_of_lt (show number < 2 ^ 64 by omega)
    have hcount : IsCount number number.toUInt64.toFloat := by
      refine isCount_pack ?_ hle
      change WholeForm number (UnpackedFloat.ofNat .binary64 number.toUInt64.toNat)
      rw [hbits]
      exact wholeForm_ofNat hdouble
    have hone : Float.exactlyRepresentablePowersOfTen[0].toModel.unpack =
        .finite .positive (2 ^ 52) (-52) (by decide) := rfl
    rw [dif_pos ⟨hsmall, by decide⟩]
    refine isCount_pack ?_ hle
    change WholeForm number (UnpackedFloat.mul .binary64 number.toUInt64.toFloat.toModel.unpack
      Float.exactlyRepresentablePowersOfTen[0].toModel.unpack)
    rw [hone]
    exact WholeForm.mul_one hcount hdouble
  · rw [dif_neg (by omega)]
    exact isCount_pack (WholeForm.ofScientific (by omega) hdouble) hle

-- Beyond the bound, a count can be that of another number of elements.
example : Float.ofNat (2 ^ 53 + 1) = Float.ofNat (2 ^ 53) := rfl

/-- A mantissa that has all its bits makes more than any with a smaller exponent. -/
theorem value_lt_of_exponent_lt {left right : Nat} {low high : Int} (hleft : left < 2 ^ 53)
    (hright : 2 ^ 52 ≤ right) (hexponent : low < high) :
    (left * 2 ^ low : ℚ) < right * 2 ^ high := by
  have hdouble : left < right * 2 := by omega
  calc (left * 2 ^ low : ℚ)
    _ < (right * 2 : Nat) * 2 ^ low :=
      mul_lt_mul_of_pos_right (by exact_mod_cast hdouble) (by positivity)
    _ = right * 2 ^ (low + 1) := by
      rw [Nat.cast_mul, mul_assoc, zpow_add_one₀ (by norm_num), mul_comm (2 ^ low)]
      rfl
    _ ≤ right * 2 ^ high :=
      mul_le_mul_of_nonneg_left (zpow_le_zpow_right₀ (by norm_num) hexponent) (by positivity)

namespace WholeForm

variable {number : Nat} {unpacked left right : UnpackedFloat}

/-- The form of a whole number stands for it. -/
theorem value?_eq (hform : WholeForm number unpacked) :
    (Binary.ofUnpacked unpacked).value? = some (number : ℚ) := by
  cases hform with
  | zero hnumber =>
    subst hnumber
    exact congrArg some (by simp [Binary.isNegative])
  | finite hstands hbits => exact congrArg some hstands.value_eq

/-- What is before the form of a whole number and not negative stands for a number less than it. -/
theorem value?_of_lt (hright : WholeForm number right)
    (hmantissa : ∀ mantissa exponent, Binary.ofUnpacked left = .finite false mantissa exponent →
      mantissa < 2 ^ 53)
    (hnonneg : UnpackedFloat.le (.zero .positive) left = true)
    (hlt : UnpackedFloat.lt left right = true) :
    ∃ value : ℚ, (Binary.ofUnpacked left).value? = some value ∧ 0 ≤ value ∧ value < number := by
  cases left with
  | notANumber => cases hnonneg
  | infinity sign =>
    cases sign with
    | negative => cases hnonneg
    | positive => cases hright <;> cases hlt
  | zero sign =>
    cases hright with
    | zero hnumber => cases hlt
    | finite hstands hbits =>
      refine ⟨0, ?_, le_refl _, by exact_mod_cast hstands.number_pos⟩
      cases sign <;> exact congrArg some (by simp [Binary.isNegative])
  | finite sign mantissa exponent hpos =>
    cases sign with
    | negative => cases hnonneg
    | positive =>
      cases hright with
      | zero hnumber => cases hlt
      | @finite rightMantissa rightExponent hstands hbits =>
        have hfull : 2 ^ 52 ≤ rightMantissa := hbits ▸ Nat.log2_self_le hstands.pos.ne'
        have hless : (compare exponent rightExponent).then (compare mantissa rightMantissa) = .lt :=
          Option.some.inj (eq_of_beq hlt)
        refine ⟨mantissa * 2 ^ exponent, rfl, by positivity, ?_⟩
        rw [← hstands.value_eq]
        rcases Ordering.then_eq_lt.mp hless with hexponent | ⟨hexponent, hmantissas⟩
        · have hexponent : exponent < rightExponent := compare_lt_iff_lt.mp hexponent
          exact value_lt_of_exponent_lt (hmantissa mantissa exponent rfl) hfull hexponent
        · have hexponent : exponent = rightExponent := compare_eq_iff_eq.mp hexponent
          have hmantissas : mantissa < rightMantissa := compare_lt_iff_lt.mp hmantissas
          rw [hexponent]
          exact mul_lt_mul_of_pos_right (by exact_mod_cast hmantissas) (by positivity)

end WholeForm

namespace IsCount

variable {number : Nat} {x y : Float}

/-- A count stands for itself. -/
theorem value?_eq (hx : IsCount number x) :
    (Binary.ofFloat x).value? = some (number : ℚ) := by
  rw [Binary.ofFloat_eq]
  exact WholeForm.value?_eq hx

/-- What is less than a count and not negative stands for a number that is. -/
theorem value?_of_lt (hy : IsCount number y) (hnonneg : 0 ≤ x) (hlt : x < y) :
    ∃ value : ℚ, (Binary.ofFloat x).value? = some value ∧ 0 ≤ value ∧ value < number := by
  have hzero : (0 : Float).toModel.unpack = .zero .positive := rfl
  have hle : UnpackedFloat.le (.zero .positive) x.toModel.unpack = true :=
    hzero ▸ of_decide_eq_true hnonneg
  have hless : UnpackedFloat.lt x.toModel.unpack y.toModel.unpack = true := of_decide_eq_true hlt
  rw [Binary.ofFloat_eq]
  refine WholeForm.value?_of_lt hy (fun mantissa exponent hfinite => ?_) hle hless
  exact (Binary.isParts_of_ofFloat ((Binary.ofFloat_eq x).trans hfinite)).lt

/-- A count is the place that it says. -/
theorem index_eq (hx : IsCount number x) : IndexNumber.ofFloat x = .at number := by
  refine IndexNumber.ofFloat_eq_at_iff.mpr ⟨number, hx.value?_eq, ?_⟩
  unfold truncation
  rw [if_pos (by positivity), Int.floor_natCast]

/-- What is less than a count and not negative is an earlier place. -/
theorem index_of_lt (hy : IsCount number y) (hnonneg : 0 ≤ x) (hlt : x < y) :
    ∃ place < number, IndexNumber.ofFloat x = .at place := by
  obtain ⟨value, hvalue, hvalueNonneg, hvalueLt⟩ := hy.value?_of_lt hnonneg hlt
  have hfloor : ⌊value⌋ < number := by
    rw [Int.floor_lt]
    exact_mod_cast hvalueLt
  have hfloorNonneg : 0 ≤ ⌊value⌋ := Int.floor_nonneg.mpr hvalueNonneg
  refine ⟨⌊value⌋.toNat, by omega, IndexNumber.ofFloat_eq_at_iff.mpr ⟨value, hvalue, ?_⟩⟩
  unfold truncation
  rw [if_pos hvalueNonneg, Int.toNat_of_nonneg hfloorNonneg]

end IsCount

/-- The bound of a slice at a place is the place. -/
theorem resolveBound_of_index {x : Float} {length place : Nat}
    (hindex : IndexNumber.ofFloat x = .at place) (hplace : place ≤ length)
    (hlength : length ≤ 2 ^ 53) : resolveBound x length = place := by
  have hnearest := Binary.nearest_of_isDouble (Binary.isDouble_of_le hlength)
  have hfromEnd : fromEnd place length = place := if_neg (by omega)
  unfold resolveBound
  rw [hindex]
  dsimp only
  rw [hfromEnd, hnearest]
  split
  · exact Int.toNat_natCast place
  · omega

/-- A count is not negative. -/
theorem nonneg_ofNat (number : Nat) : 0 ≤ Float.ofNat number :=
  ((unsigned_ofScientific number false 0).isMagnitude
    (isNaN_float_ofScientific number false 0)).nonneg

end Kestrel
