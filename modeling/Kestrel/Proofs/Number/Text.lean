import Kestrel.Number.Layout
import Kestrel.Number.Reading
import Mathlib.Data.Nat.Basic

/-!
# Text of numbers that were read

The two zeros differ in their plain text, and are written alike by the language. A number that was
read from a text without a sign is not negative, so its text is the plain one.
-/

namespace Kestrel

open Float.Model

section Sign

variable {spec : Format}

/-- The sign of a number; one that is none counts as positive. -/
def signOf : UnpackedFloat → UnpackedFloat.Sign
  | .infinity sign | .zero sign | .finite sign _ _ _ => sign
  | .notANumber => .positive

/-- A number chosen between two of one sign has this sign. -/
theorem signOf_ite {condition : Prop} [Decidable condition] {x y : UnpackedFloat}
    {sign : UnpackedFloat.Sign} (hx : signOf x = sign) (hy : signOf y = sign) :
    signOf (if condition then x else y) = sign := by
  split_ifs
  · exact hx
  · exact hy

/-- A choice between two numbers of a sign has this sign. -/
theorem signOf_dite {condition : Prop} [Decidable condition] {x : condition → UnpackedFloat}
    {y : ¬ condition → UnpackedFloat} {sign : UnpackedFloat.Sign}
    (hx : ∀ h, signOf (x h) = sign) (hy : ∀ h, signOf (y h) = sign) :
    signOf (if h : condition then x h else y h) = sign := by
  split_ifs with h
  · exact hx h
  · exact hy h

/-- A packed number has the sign that it was packed with. -/
theorem unpackSign_packComponents (sign : UnpackedFloat.Sign) (exponent : BitVec spec.exponentBits)
    (mantissa : BitVec spec.mantissaBitsWithoutImplicit) :
    UnpackedFloat.unpackSign (UnpackedFloat.packComponents spec sign exponent mantissa) =
      sign.toBitVec := by
  ext i hi
  obtain rfl : i = 0 := by omega
  delta UnpackedFloat.unpackSign UnpackedFloat.packComponents
  simp [BitVec.getLsbD_append, BitVec.getElem_append]

/-- The sign is packed as it is. -/
theorem unpackSign_pack (number : UnpackedFloat) :
    UnpackedFloat.unpackSign (UnpackedFloat.pack spec number) = (signOf number).toBitVec := by
  cases number with
  | notANumber | infinity sign | zero sign => exact unpackSign_packComponents _ _ _
  | finite sign mantissa exponent =>
    delta UnpackedFloat.pack
    dsimp only
    change _ = sign.toBitVec
    split_ifs
    · exact unpackSign_packComponents _ _ _
    · exact unpackSign_packComponents _ _ _
    · exact unpackSign_packComponents _ _ _

/-- The sign is unpacked as it is. -/
theorem signOf_unpack {bits : BitVec spec.numBits} (hsign : UnpackedFloat.unpackSign bits = 0#1) :
    signOf (UnpackedFloat.unpack spec bits) = .positive := by
  have hpositive : UnpackedFloat.Sign.ofBitVec (UnpackedFloat.unpackSign bits) = .positive := by
    rw [hsign]
    rfl
  delta UnpackedFloat.unpack
  dsimp only
  apply signOf_ite
  · apply signOf_ite
    · exact hpositive
    · rfl
  · apply signOf_ite
    · apply signOf_dite
      · intro _
        exact hpositive
      · intro _
        exact hpositive
    · exact hpositive

/-- Rounding keeps the sign. -/
theorem signOf_roundWithAccuracy (sign : UnpackedFloat.Sign) (mantissa : Nat) (exponent : Int)
    (accuracy : UnpackedFloat.Accuracy) :
    signOf (UnpackedFloat.roundWithAccuracy spec sign mantissa exponent accuracy) = sign := by
  delta UnpackedFloat.roundWithAccuracy
  dsimp only
  apply signOf_dite
  · intro _
    rfl
  · intro _
    rfl

/-- The product of positive numbers is positive. -/
theorem signOf_mul {x y : UnpackedFloat} (hx : signOf x = .positive) (hy : signOf y = .positive) :
    signOf (UnpackedFloat.mul spec x y) = .positive := by
  cases x <;> cases y <;> first
    | rfl
    | cases hx
      cases hy
      first
        | rfl
        | exact signOf_roundWithAccuracy _ _ _ _

/-- The quotient of positive numbers is positive. -/
theorem signOf_div {x y : UnpackedFloat} (hx : signOf x = .positive) (hy : signOf y = .positive) :
    signOf (UnpackedFloat.div spec x y) = .positive := by
  cases x <;> cases y <;> first
    | rfl
    | cases hx
      cases hy
      first
        | rfl
        | exact signOf_roundWithAccuracy _ _ _ _

/-- Digits and an exponent stand for a positive number. -/
theorem signOf_ofScientific (digits : Nat) (exponent : Int) :
    signOf (UnpackedFloat.ofScientific spec digits exponent) = .positive := by
  delta UnpackedFloat.ofScientific
  apply signOf_dite
  · intro _
    rfl
  · intro _
    apply signOf_ite rfl
    apply signOf_ite rfl
    apply signOf_ite
    · exact signOf_mul rfl rfl
    · exact signOf_div rfl rfl

/-- A natural number stands for a positive number. -/
theorem signOf_ofNat (number : Nat) :
    signOf (UnpackedFloat.ofNat spec number) = .positive := by
  delta UnpackedFloat.ofNat UnpackedFloat.ofInt UnpackedFloat.normalize
  split
  · next hlt =>
    have hneg := Std.compare_eq_lt.mp hlt
    omega
  · rfl
  · exact signOf_roundWithAccuracy _ _ _ _

end Sign

/-- The sign bit of a number is clear. -/
def Unsigned (x : Float) : Prop :=
  @UnpackedFloat.unpackSign Format.binary64 x.toBits.toBitVec = 0#1

/-- The sign bit of a positive number is clear. -/
theorem unsigned_pack {number : UnpackedFloat} (hsign : signOf number = .positive) :
    Unsigned ⟨pack number⟩ := by
  change UnpackedFloat.unpackSign (UnpackedFloat.pack Format.binary64 number) = _
  rw [unpackSign_pack, hsign]
  rfl

/-- The sign bit of a product is clear if those of the factors are. -/
theorem Unsigned.mul {x y : Float} (hx : Unsigned x) (hy : Unsigned y) : Unsigned (x * y) :=
  unsigned_pack (signOf_mul (signOf_unpack hx) (signOf_unpack hy))

/-- The sign bit of a quotient is clear if those of both numbers are. -/
theorem Unsigned.div {x y : Float} (hx : Unsigned x) (hy : Unsigned y) : Unsigned (x / y) :=
  unsigned_pack (signOf_div (signOf_unpack hx) (signOf_unpack hy))

/-- Bits with a clear sign bit stand for a number with a clear one. -/
theorem unsigned_ofBits {bits : UInt64}
    (hsign : @UnpackedFloat.unpackSign Format.binary64 bits.toBitVec = 0#1) :
    Unsigned (Float.ofBits bits) :=
  unsigned_pack (signOf_unpack hsign)

/-- The powers of ten that are doubles are positive. -/
theorem unsigned_powerOfTen {x : Float} (hx : x ∈ Float.exactlyRepresentablePowersOfTen) :
    Unsigned x := by
  simp only [Float.exactlyRepresentablePowersOfTen, List.mem_toArray, List.mem_cons,
    List.not_mem_nil, or_false] at hx
  repeat' rcases hx with rfl | hx
  all_goals exact unsigned_ofBits rfl

/-- Digits and an exponent stand for a number whose sign bit is clear. -/
theorem unsigned_ofScientific (digits : Nat) (down : Bool) (exponent : Nat) :
    Unsigned (Float.ofScientific digits down exponent) := by
  unfold Float.ofScientific
  by_cases hsmall : digits < 2 ^ 53 ∧ exponent ≤ 22
  · rw [dif_pos hsmall]
    have hdigits : Unsigned digits.toUInt64.toFloat := unsigned_pack (signOf_ofNat _)
    have hpower := unsigned_powerOfTen (Array.getElem_mem (show exponent < 23 by omega))
    dsimp only
    split_ifs
    · exact hdigits.div hpower
    · exact hdigits.mul hpower
  · rw [dif_neg hsmall]
    exact unsigned_pack (signOf_ofScientific _ _)

/-- A decimal is read as a number that is not negative. -/
theorem Decimal.unsigned_toFloat (decimal : Decimal) : Unsigned decimal.toFloat := by
  have hzero : Unsigned 0 := unsigned_ofScientific _ _ _
  have hone : Unsigned 1 := unsigned_ofScientific _ _ _
  unfold Decimal.toFloat
  dsimp only
  split_ifs
  · exact hzero
  · exact hone.div hzero
  · exact hzero
  · exact unsigned_ofScientific _ _ _

/-- The sign bit of a magnitude that is read is clear. -/
theorem unsigned_of_readMagnitude? {text : List Char} {x : Float}
    (hread : readMagnitude? text = some x) : Unsigned x := by
  unfold readMagnitude? at hread
  dsimp only at hread
  have hzero : Unsigned 0 := unsigned_ofScientific _ _ _
  have hone : Unsigned 1 := unsigned_ofScientific _ _ _
  split_ifs at hread
  · cases hread
    exact hone.div hzero
  · cases hread
    exact hzero.div hzero
  · obtain ⟨decimal, -, rfl⟩ := Option.map_eq_some_iff.mp hread
    exact decimal.unsigned_toFloat

/-- The exact meaning of an unsigned number is not negative. -/
theorem Unsigned.ofFloat {x : Float} (hunsigned : Unsigned x) {negative : Bool} {mantissa : Nat}
    {exponent : Int} (hfinite : Binary.ofFloat x = .finite negative mantissa exponent) :
    negative = false := by
  have hbit : x.toBits.toNat / Binary.twoTo 63 % 2 = 0 := by
    have hsign : (x.toBits.toBitVec.extractLsb 63 63).toNat = 0 :=
      congrArg BitVec.toNat hunsigned
    change x.toBits.toNat / 2 ^ 63 % 2 = 0
    simpa [Nat.shiftRight_eq_div_pow] using hsign
  unfold Binary.ofFloat Binary.ofBits at hfinite
  dsimp only at hfinite
  rw [hbit] at hfinite
  split_ifs at hfinite
  · cases hfinite
    rfl
  · cases hfinite
    rfl

/-- The text of a number that was read without a sign is the plain one. -/
theorem numberText_of_read {text : List Char} {x : Float} (hread : readNumber? text = some x)
    (hsign : text.head? ≠ some '-') : numberText x = NumberLayout.plain.format x := by
  have hunsigned : Unsigned x := by
    unfold readNumber? at hread
    split at hread
    · exact absurd rfl hsign
    · exact unsigned_of_readMagnitude? hread
    · exact unsigned_of_readMagnitude? hread
  unfold numberText
  split
  · next negative exponent hzero =>
    obtain rfl := hunsigned.ofFloat hzero
    unfold NumberLayout.format
    rw [hzero]
    rfl
  · rfl

end Kestrel
