import Kestrel.Number.Binary
import Mathlib.Algebra.Group.Nat.Defs

/-!
# Doubles taken apart

A number is calculated with as a sign, a mantissa and an exponent, which are taken from its bits.
Its exact meaning is taken from the same bits, and says the same.
-/

namespace Kestrel

open Float.Model

/-- The leading bit of a mantissa counts as much as the fraction has room for. -/
theorem append_leading (fraction : BitVec 52) :
    (1#1 ++ fraction).toNat = 2 ^ 52 + fraction.toNat := by
  rw [BitVec.toNat_append, ← Nat.shiftLeft_add_eq_or_of_lt (BitVec.isLt _)]
  rfl

namespace Binary

/-- Whether a sign is that of a negative number. -/
def isNegative : UnpackedFloat.Sign → Bool
  | .negative => true
  | .positive => false

/-- The exact meaning of a number in the form in which it is calculated with. -/
def ofUnpacked : UnpackedFloat → Binary
  | .notANumber => .nan
  | .infinity sign => .infinite (isNegative sign)
  | .zero sign => .finite (isNegative sign) 0 leastExponent
  | .finite sign mantissa exponent _ => .finite (isNegative sign) mantissa exponent

section Bits

variable (bits : BitVec 64)

/-- The exponent of a double. -/
theorem unpackExponent_toNat : (@UnpackedFloat.unpackExponent .binary64 bits).toNat =
    bits.toNat / twoTo fractionBits % twoTo 11 := by
  change (bits.extractLsb 62 52).toNat = _
  rw [BitVec.extractLsb_toNat, Nat.shiftRight_eq_div_pow]
  rfl

/-- The fraction of a double. -/
theorem unpackMantissa_toNat :
    (@UnpackedFloat.unpackMantissa .binary64 bits).toNat = bits.toNat % twoTo fractionBits := by
  change (bits.extractLsb 51 0).toNat = _
  rw [BitVec.extractLsb_toNat]
  rfl

/-- The sign of a double. -/
theorem isNegative_unpackSign :
    isNegative (UnpackedFloat.Sign.ofBitVec (@UnpackedFloat.unpackSign .binary64 bits)) =
      (bits.toNat / twoTo 63 % 2 == 1) := by
  have hsign : ∀ sign : BitVec 1,
      isNegative (UnpackedFloat.Sign.ofBitVec sign) = (sign.toNat == 1) := by decide
  rw [hsign]
  change ((bits.extractLsb 63 63).toNat == 1) = _
  rw [BitVec.extractLsb_toNat, Nat.shiftRight_eq_div_pow]
  rfl

/-- The exact meaning of bits is that of the form in which they are calculated with. -/
theorem ofBits_eq : ofBits bits.toNat = ofUnpacked (UnpackedFloat.unpack .binary64 bits) := by
  have hones : @UnpackedFloat.unpackExponent .binary64 bits = -BitVec.ofNat 11 1 ↔
      bits.toNat / twoTo fractionBits % twoTo 11 = 2047 := by
    rw [← unpackExponent_toNat bits]
    exact BitVec.toNat_inj.symm
  have hzeros : @UnpackedFloat.unpackExponent .binary64 bits = BitVec.ofNat 11 0 ↔
      bits.toNat / twoTo fractionBits % twoTo 11 = 0 := by
    rw [← unpackExponent_toNat bits]
    exact BitVec.toNat_inj.symm
  have hfraction : @UnpackedFloat.unpackMantissa .binary64 bits = BitVec.ofNat 52 0 ↔
      bits.toNat % twoTo fractionBits = 0 := by
    rw [← unpackMantissa_toNat bits]
    exact BitVec.toNat_inj.symm
  unfold ofBits
  delta UnpackedFloat.unpack
  dsimp only
  rw [← isNegative_unpackSign bits]
  by_cases hlargest : bits.toNat / twoTo fractionBits % twoTo 11 = 2047
  · rw [if_pos hlargest, if_pos (hones.mpr hlargest)]
    by_cases hzero : bits.toNat % twoTo fractionBits = 0
    · rw [if_pos hzero, if_pos (hfraction.mpr hzero)]
      rfl
    · rw [if_neg hzero, if_neg (mt hfraction.mp hzero)]
      rfl
  · rw [if_neg hlargest, if_neg (mt hones.mp hlargest)]
    by_cases hleast : bits.toNat / twoTo fractionBits % twoTo 11 = 0
    · rw [if_pos hleast, if_pos (hzeros.mpr hleast)]
      by_cases hzero : bits.toNat % twoTo fractionBits = 0
      · rw [hzero, dif_pos (hfraction.mpr hzero)]
        rfl
      · rw [dif_neg (mt hfraction.mp hzero)]
        refine congrArg₂ (Binary.finite _) (unpackMantissa_toNat bits).symm ?_
        rw [unpackExponent_toNat bits, hleast]
        rfl
    · rw [if_neg hleast, if_neg (mt hzeros.mp hleast)]
      refine congrArg₂ (Binary.finite _) ?_ ?_
      · exact ((append_leading _).trans (congrArg _ (unpackMantissa_toNat bits))).symm
      · rw [unpackExponent_toNat bits]
        change (-1074 : Int) + _ = _ - ((1023 : Nat) + (52 : Nat))
        omega

end Bits

/-- The exact meaning of a number is that of the form in which it is calculated with. -/
theorem ofFloat_eq (x : Float) : ofFloat x = ofUnpacked x.toModel.unpack :=
  ofBits_eq x.toBits.toBitVec

end Binary

end Kestrel
