import Kestrel.Proofs.Number.Literal
import Kestrel.Proofs.Number.Plain
import Kestrel.Proofs.Number.Truncation

/-!
# Exact arithmetic on whole numbers

A double is calculated with as a mantissa of 53 bits and an exponent. If a result is a whole number
that is a double, then the bits that do not fit into the mantissa are zeros: it is not rounded, and
it is packed and unpacked without a loss.
-/

namespace Kestrel

open Float.Model

/-- A mantissa that is not zero and an exponent, for a whole number. -/
structure StandsFor (mantissa : Nat) (exponent : Int) (number : Nat) : Prop where
  pos : 0 < mantissa
  value_eq : (mantissa * 2 ^ exponent : ℚ) = number

/-- A number lies between powers of two that are next to each other. -/
theorem log2_bounds {number : Nat} (hnumber : 0 < number) :
    (2 : ℚ) ^ (number.log2 : Int) ≤ number ∧ (number : ℚ) < 2 ^ ((number.log2 : Int) + 1) := by
  constructor
  · rw [zpow_natCast]
    exact_mod_cast Nat.log2_self_le hnumber.ne'
  · rw [← Nat.cast_succ, zpow_natCast]
    exact_mod_cast Nat.lt_log2_self

namespace StandsFor

variable {number mantissa : Nat} {exponent : Int}

/-- A whole number stands for itself. -/
theorem self (hnumber : 0 < number) : StandsFor number 0 number :=
  ⟨hnumber, by rw [zpow_zero, mul_one]⟩

/-- What is stood for is not zero. -/
theorem number_pos (hstands : StandsFor mantissa exponent number) : 0 < number := by
  have hmantissa := hstands.pos
  have hpos : (0 : ℚ) < mantissa * 2 ^ exponent := by positivity
  rw [hstands.value_eq] at hpos
  exact_mod_cast hpos

/-- A mantissa can be shifted left by as much as its exponent is lowered. -/
theorem shiftLeft (hstands : StandsFor mantissa exponent number) (shift : Nat) :
    StandsFor (mantissa <<< shift) (exponent - shift) number := by
  constructor
  · rw [Nat.shiftLeft_eq]
    exact Nat.mul_pos hstands.pos (Nat.pow_pos (by decide))
  · rw [← hstands.value_eq, Nat.shiftLeft_eq, Nat.cast_mul, Nat.cast_pow, mul_assoc,
      ← zpow_natCast, Nat.cast_ofNat, ← zpow_add₀ (by norm_num)]
    congr 2
    omega

/-- Mantissas with one exponent are added. -/
theorem add {other second : Nat} (hleft : StandsFor mantissa exponent number)
    (hright : StandsFor other exponent second) :
    StandsFor (mantissa + other) exponent (number + second) := by
  refine ⟨Nat.add_pos_left hleft.pos _, ?_⟩
  rw [Nat.cast_add, Nat.cast_add, add_mul, hleft.value_eq, hright.value_eq]

/-- A number has the bits of its mantissa, up to the exponent. -/
theorem log2_add (hstands : StandsFor mantissa exponent number) :
    (mantissa.log2 : Int) + exponent = number.log2 := by
  obtain ⟨hlow, hhigh⟩ := log2_bounds hstands.pos
  obtain ⟨hnumberLow, hnumberHigh⟩ := log2_bounds hstands.number_pos
  rw [← hstands.value_eq] at hnumberLow hnumberHigh
  have hpower : (0 : ℚ) < 2 ^ exponent := by positivity
  have hbelow : (2 : ℚ) ^ ((mantissa.log2 : Int) + exponent) < 2 ^ ((number.log2 : Int) + 1) := by
    calc (2 : ℚ) ^ ((mantissa.log2 : Int) + exponent)
      _ = 2 ^ (mantissa.log2 : Int) * 2 ^ exponent := zpow_add₀ (by norm_num) _ _
      _ ≤ mantissa * 2 ^ exponent := mul_le_mul_of_nonneg_right hlow hpower.le
      _ < 2 ^ ((number.log2 : Int) + 1) := hnumberHigh
  have habove : (2 : ℚ) ^ (number.log2 : Int) < 2 ^ ((mantissa.log2 : Int) + 1 + exponent) := by
    calc (2 : ℚ) ^ (number.log2 : Int)
      _ ≤ mantissa * 2 ^ exponent := hnumberLow
      _ < 2 ^ ((mantissa.log2 : Int) + 1) * 2 ^ exponent := mul_lt_mul_of_pos_right hhigh hpower
      _ = 2 ^ ((mantissa.log2 : Int) + 1 + exponent) := (zpow_add₀ (by norm_num) _ _).symm
  have hbelow := (zpow_lt_zpow_iff_right₀ (by norm_num)).mp hbelow
  have habove := (zpow_lt_zpow_iff_right₀ (by norm_num)).mp habove
  omega

/-- The exponent that a number has with a mantissa of 53 bits. -/
theorem targetExponent_eq (hstands : StandsFor mantissa exponent number) :
    Format.binary64.targetExponent (totalExponent mantissa exponent) =
      (number.log2 : Int) - 52 := by
  have hlog := hstands.log2_add
  change max ((mantissa.log2 : Int) + 1 + exponent - 53) (-1074) = _
  omega

/-- A double has a mantissa with as many bits as there is room for. -/
theorem exists_full (hnumber : 0 < number) (hdouble : Binary.IsDouble number) :
    ∃ full, StandsFor full ((number.log2 : Int) - 52) number := by
  by_cases hlarge : 52 ≤ number.log2
  · obtain ⟨full, hfull⟩ := Binary.spacing_dvd_of_le hdouble (Nat.le_refl number)
    have hspacing : (Binary.spacing number : ℚ) = 2 ^ ((number.log2 : Int) - 52) := by
      rw [← Nat.cast_ofNat (n := 52), ← Nat.cast_sub hlarge, zpow_natCast]
      exact Nat.cast_pow _ _
    refine ⟨full, Nat.pos_of_ne_zero fun hzero => ?_, ?_⟩
    · rw [hzero] at hfull
      exact hnumber.ne' hfull
    · rw [← hspacing, mul_comm]
      exact_mod_cast hfull.symm
  · have hshifted := (self hnumber).shiftLeft (52 - number.log2)
    have hexponent : (0 : Int) - (52 - number.log2 : Nat) = number.log2 - 52 := by omega
    exact ⟨_, hexponent ▸ hshifted⟩

/-- The mantissa of a double has zeros behind the bits that there is room for. -/
theorem eq_full_mul (hstands : StandsFor mantissa exponent number) {full : Nat}
    (hfull : StandsFor full ((number.log2 : Int) - 52) number) (hbits : 52 ≤ mantissa.log2) :
    mantissa = full * 2 ^ (mantissa.log2 - 52) := by
  have hlog := hstands.log2_add
  have hpower : (2 : ℚ) ^ exponent ≠ 0 := by positivity
  have hcast : (mantissa : ℚ) = ((full * 2 ^ (mantissa.log2 - 52) : Nat) : ℚ) := by
    rw [← mul_left_inj' hpower, hstands.value_eq, ← hfull.value_eq, Nat.cast_mul, Nat.cast_pow,
      ← zpow_natCast, mul_assoc, Nat.cast_ofNat, ← zpow_add₀ (by norm_num)]
    congr 2
    omega
  exact_mod_cast hcast

end StandsFor

/-- Zero, or a mantissa of 53 bits and an exponent, as the form of a whole number. -/
inductive WholeForm (number : Nat) : UnpackedFloat → Prop
  | zero (hnumber : number = 0) : WholeForm number (.zero .positive)
  | finite {mantissa : Nat} {exponent : Int} (hstands : StandsFor mantissa exponent number)
    (hbits : mantissa.log2 = 52) :
    WholeForm number (.finite .positive mantissa exponent hstands.pos)

section Rounding

variable {number mantissa : Nat} {exponent : Int}

/-- Zeros that are shifted out of a mantissa leave no trace. -/
theorem shiftRight_exact (mantissa shift : Nat) :
    (UnpackedFloat.ExtendedMantissa.mk (mantissa * 2 ^ shift) false false >>> shift :
      UnpackedFloat.ExtendedMantissa) = ⟨mantissa, false, false⟩ := by
  change Nat.repeat UnpackedFloat.ExtendedMantissa.shiftRightOne shift _ = _
  induction shift generalizing mantissa with
  | zero =>
    rw [Nat.pow_zero, Nat.mul_one]
    rfl
  | succ shift ih =>
    rw [Nat.pow_succ', ← Nat.mul_assoc]
    change UnpackedFloat.ExtendedMantissa.shiftRightOne (Nat.repeat _ shift _) = _
    rw [ih]
    change UnpackedFloat.ExtendedMantissa.mk (mantissa * 2 / 2) (mantissa * 2 % 2 != 0) _ = _
    rw [Nat.mul_div_cancel _ (by decide), Nat.mul_mod_left]
    rfl

/-- A mantissa with enough bits is shifted to one of 53 bits, and nothing is lost. -/
theorem shiftToTargetExponent_exact (hstands : StandsFor mantissa exponent number)
    (hbits : 52 ≤ mantissa.log2) (hdouble : Binary.IsDouble number) :
    ∃ full, full.log2 = 52 ∧ StandsFor full ((number.log2 : Int) - 52) number ∧
      UnpackedFloat.shiftToTargetExponent .binary64 mantissa exponent .exact =
        (⟨full, false, false⟩, (number.log2 : Int) - 52) := by
  obtain ⟨full, hfull⟩ := StandsFor.exists_full hstands.number_pos hdouble
  have hlog := hstands.log2_add
  have hfullLog := hfull.log2_add
  have hamount : ((number.log2 : Int) - 52 - exponent).toNat = mantissa.log2 - 52 := by omega
  refine ⟨full, by omega, hfull, ?_⟩
  delta UnpackedFloat.shiftToTargetExponent UnpackedFloat.shiftToExponent
  dsimp only
  rw [hstands.targetExponent_eq, hamount]
  refine Prod.ext ?_ (show exponent + (mantissa.log2 - 52 : Nat) = number.log2 - 52 by omega)
  have hshift := shiftRight_exact full (mantissa.log2 - 52)
  rwa [← hstands.eq_full_mul hfull hbits] at hshift

/-- What is shifted, rounded and shifted again to a mantissa that is not zero. -/
theorem roundWithAccuracy_eq {spec : Format} {sign : UnpackedFloat.Sign}
    {accuracy : UnpackedFloat.Accuracy} {extended final : UnpackedFloat.ExtendedMantissa}
    {middle last : Int}
    (hextended : UnpackedFloat.shiftToTargetExponent spec mantissa exponent accuracy =
      (extended, middle))
    (hfinal : UnpackedFloat.shiftToTargetExponent spec extended.roundedMantissa middle .exact =
      (final, last)) (hpos : 0 < final.mantissa) :
    UnpackedFloat.roundWithAccuracy spec sign mantissa exponent accuracy =
      .finite sign final.mantissa last hpos := by
  delta UnpackedFloat.roundWithAccuracy
  rw [hextended]
  dsimp only
  rw [hfinal]
  exact dif_neg hpos.ne'

/-- A mantissa with enough bits is rounded to that of the number. -/
theorem wholeForm_roundWithAccuracy (hstands : StandsFor mantissa exponent number)
    (hbits : 52 ≤ mantissa.log2) (hdouble : Binary.IsDouble number) :
    WholeForm number
      (UnpackedFloat.roundWithAccuracy .binary64 .positive mantissa exponent .exact) := by
  obtain ⟨full, hfullBits, hfull, hshift⟩ := shiftToTargetExponent_exact hstands hbits hdouble
  obtain ⟨final, hfinalBits, hfinal, hagain⟩ :=
    shiftToTargetExponent_exact hfull hfullBits.ge hdouble
  rw [roundWithAccuracy_eq hshift hagain hfinal.pos]
  exact .finite hfinal hfinalBits

/-- A number in any form is rounded to itself. -/
theorem wholeForm_round (hstands : StandsFor mantissa exponent number)
    (hdouble : Binary.IsDouble number) :
    WholeForm number (UnpackedFloat.round .binary64 .positive mantissa exponent) := by
  have hshifted := hstands.shiftLeft (exponent - ((number.log2 : Int) - 52)).toNat
  have hlog := hshifted.log2_add
  delta UnpackedFloat.round UnpackedFloat.decreaseExponent
  dsimp only
  rw [hstands.targetExponent_eq]
  exact wholeForm_roundWithAccuracy hshifted (by omega) hdouble

/-- What is positive is rounded with its sign. -/
theorem normalize_of_pos {spec : Format} (hmantissa : 0 < mantissa)
    (zeroSign : UnpackedFloat.Sign) :
    UnpackedFloat.normalize spec mantissa exponent zeroSign =
      UnpackedFloat.round spec .positive mantissa exponent := by
  have hcompare : compare (mantissa : Int) 0 = .gt := compare_gt_iff_gt.mpr (by omega)
  delta UnpackedFloat.normalize
  rw [hcompare]
  rfl

/-- A whole number is made a number in its form. -/
theorem wholeForm_ofNat (hdouble : Binary.IsDouble number) :
    WholeForm number (UnpackedFloat.ofNat .binary64 number) := by
  rcases Nat.eq_zero_or_pos number with rfl | hpos
  · exact .zero rfl
  · change WholeForm number (UnpackedFloat.normalize .binary64 number 0 .positive)
    rw [normalize_of_pos hpos]
    exact wholeForm_round (.self hpos) hdouble

end Rounding

section Packing

variable {number mantissa : Nat} {exponent : Int}

/-- A finite number is known by its sign, its mantissa and its exponent. -/
theorem finite_eq {sign other : UnpackedFloat.Sign} {first second : Nat} {left right : Int}
    (hfirst : 0 < first) (hsign : sign = other) (hmantissa : first = second)
    (hexponent : left = right) :
    UnpackedFloat.finite sign first left hfirst =
      .finite other second right (hmantissa ▸ hfirst) := by
  subst hsign hmantissa hexponent
  rfl

/-- A mantissa with a leading one is packed without it. -/
theorem unpack_components {spec : Format} {sign : UnpackedFloat.Sign}
    {biased : BitVec spec.exponentBits} {fraction : BitVec spec.mantissaBitsWithoutImplicit}
    (hones : biased ≠ -BitVec.ofNat spec.exponentBits 1)
    (hzero : biased ≠ BitVec.ofNat spec.exponentBits 0)
    (hmantissa : mantissa = (1#1 ++ fraction).toNat)
    (hexponent : exponent = biased.toNat - (spec.exponentBias + spec.mantissaBitsWithoutImplicit))
    (hpos : 0 < mantissa) :
    UnpackedFloat.unpack spec (UnpackedFloat.packComponents spec sign biased fraction) =
      .finite sign mantissa exponent hpos := by
  have hbiased : UnpackedFloat.unpackExponent
      (UnpackedFloat.packComponents spec sign biased fraction) = biased :=
    UnpackedFloat.unpackExponent_packComponents
  have hfraction : UnpackedFloat.unpackMantissa
      (UnpackedFloat.packComponents spec sign biased fraction) = fraction :=
    UnpackedFloat.unpackMantissa_packComponents
  delta UnpackedFloat.unpack
  dsimp only
  rw [if_neg (hbiased.symm ▸ hones), if_neg (hbiased.symm ▸ hzero)]
  refine finite_eq _ ?_ ?_ ?_
  · rw [unpackSign_packComponents]
    cases sign <;> rfl
  · rw [hfraction, hmantissa]
  · rw [hbiased, hexponent]

/-- A mantissa of 53 bits is packed without its leading bit, and the exponent with its bias. -/
theorem pack_eq {sign : UnpackedFloat.Sign} {biased : Nat} (hpos : 0 < mantissa)
    (hbits : mantissa.log2 = 52) (hbiased : (biased : Int) = exponent + 1075)
    (hlt : biased < 2046) :
    UnpackedFloat.pack .binary64 (.finite sign mantissa exponent hpos) =
      UnpackedFloat.packComponents .binary64 sign (BitVec.ofNat 11 biased)
        (BitVec.ofNat 52 mantissa) := by
  have hamount : (exponent + (1023 : Nat) + (52 : Nat)).toNat = biased := by omega
  delta UnpackedFloat.pack
  dsimp only
  change (if 2 ^ 11 ≤ (exponent + (1023 : Nat) + (52 : Nat)).toNat + 1 then _ else
    if mantissa.log2 + 1 = 53 then UnpackedFloat.packComponents _ _
      (BitVec.ofNat _ (exponent + (1023 : Nat) + (52 : Nat)).toNat) _ else _) = _
  rw [hamount, if_neg (by omega), if_pos (by omega)]

/-- What has the form of a whole number is packed and unpacked as it is. -/
theorem WholeForm.unpack_pack {unpacked : UnpackedFloat} (hform : WholeForm number unpacked)
    (hle : number ≤ 2 ^ 53) :
    UnpackedFloat.unpack .binary64 (UnpackedFloat.pack .binary64 unpacked) = unpacked := by
  cases hform with
  | zero hnumber => rfl
  | @finite mantissa exponent hstands hbits =>
    have hnumber := hstands.number_pos
    have hlog := hstands.log2_add
    have hlogLt : number.log2 < 54 := (Nat.log2_lt hnumber.ne').mpr (by omega)
    obtain ⟨biased, hbiased⟩ : ∃ biased : Nat, (biased : Int) = exponent + 1075 :=
      ⟨(exponent + 1075).toNat, by omega⟩
    have hlow := Nat.log2_self_le hstands.pos.ne'
    have hhigh : mantissa < 2 ^ (mantissa.log2 + 1) := Nat.lt_log2_self
    rw [hbits] at hlow hhigh
    have hmantissa : mantissa = (1#1 ++ BitVec.ofNat 52 mantissa).toNat := by
      rw [append_leading, BitVec.toNat_ofNat]
      omega
    have htoNat : (BitVec.ofNat 11 biased).toNat = biased := by
      rw [BitVec.toNat_ofNat]
      omega
    have hones := ofNat_ne_ones (show biased + 1 < 2 ^ 11 by omega)
    rw [pack_eq hstands.pos hbits hbiased (by omega)]
    refine unpack_components hones (fun hzero => ?_) hmantissa ?_ hstands.pos
    · have hbits := congrArg BitVec.toNat hzero
      rw [htoNat] at hbits
      change biased = 0 at hbits
      omega
    · rw [htoNat]
      change exponent = biased - ((1023 : Nat) + (52 : Nat))
      omega

end Packing

namespace WholeForm

variable {number : Nat} {unpacked : UnpackedFloat}

/-- The sum of whole numbers is rounded to itself. -/
theorem add {first second : Nat} {left right : UnpackedFloat} (hleft : WholeForm first left)
    (hright : WholeForm second right) (hdouble : Binary.IsDouble (first + second)) :
    WholeForm (first + second) (UnpackedFloat.add .binary64 left right) := by
  cases hleft with
  | zero hfirst =>
    subst hfirst
    rw [Nat.zero_add]
    cases hright with
    | zero hsecond => exact .zero hsecond
    | finite hstands hbits => exact .finite hstands hbits
  | @finite leftMantissa leftExponent hstandsLeft hbitsLeft =>
    cases hright with
    | zero hsecond =>
      subst hsecond
      exact .finite hstandsLeft hbitsLeft
    | @finite rightMantissa rightExponent hstandsRight hbitsRight =>
      let least := min leftExponent rightExponent
      have hleft := hstandsLeft.shiftLeft (leftExponent - least).toNat
      have hright := hstandsRight.shiftLeft (rightExponent - least).toNat
      have hleftLeast : leftExponent - (leftExponent - least).toNat = least := by omega
      have hrightLeast : rightExponent - (rightExponent - least).toNat = least := by omega
      rw [hleftLeast] at hleft
      rw [hrightLeast] at hright
      have hsum := hleft.add hright
      change WholeForm _ (UnpackedFloat.normalize .binary64
        ((leftMantissa <<< (leftExponent - least).toNat : Nat) +
          (rightMantissa <<< (rightExponent - least).toNat : Nat)) least .positive)
      rw [← Nat.cast_add, normalize_of_pos hsum.pos]
      exact wholeForm_round hsum hdouble

/-- A whole number times one is rounded to itself. -/
theorem mul_one (hform : WholeForm number unpacked) (hdouble : Binary.IsDouble number) :
    WholeForm number (UnpackedFloat.mul .binary64 unpacked
      (.finite .positive (2 ^ 52) (-52) (by decide))) := by
  cases hform with
  | zero hnumber => exact .zero hnumber
  | @finite mantissa exponent hstands hbits =>
    have hproduct := hstands.shiftLeft 52
    have hlog := hstands.log2_add
    have hlogProduct := hproduct.log2_add
    have hrounded := wholeForm_roundWithAccuracy hproduct (by omega) hdouble
    rwa [Nat.shiftLeft_eq] at hrounded

/-- A whole number that is read from its digits is itself. -/
theorem ofScientific (hnumber : 0 < number) (hdouble : Binary.IsDouble number) :
    WholeForm number (UnpackedFloat.ofScientific .binary64 number 0) := by
  have hshifted := (StandsFor.self hnumber).shiftLeft 53
  have hlog := hshifted.log2_add
  have hnotSmall : ¬ (0 : Int) < -(2 ^ 11 + (number.log2 : Int)) := by omega
  have hproduct : UnpackedFloat.ofScientific .binary64 number 0 =
      UnpackedFloat.roundWithAccuracy .binary64 .positive (number <<< 53 * 10 ^ 0) (-53 + 0)
        .exact := by
    delta UnpackedFloat.ofScientific
    rw [dif_neg hnumber.ne', if_neg (by decide), if_neg hnotSmall, if_pos (by decide)]
    rfl
  rw [hproduct, Nat.pow_zero, Nat.mul_one]
  exact wholeForm_roundWithAccuracy hshifted (by omega) hdouble

end WholeForm

end Kestrel
