import Kestrel.Proofs.Number.Text
import Mathlib.Algebra.Group.Nat.Defs

/-!
# Numbers of literals

A text that begins with a digit is no word for infinity or for what is not a number, so it is read
as a decimal. However large or small a decimal is, the double nearest to it is a number that is not
negative: between the digits and the result no zero is divided by zero, and no infinity is
multiplied by zero.
-/

namespace Kestrel

open Float.Model

/-- A number that is not negative; it may be infinite. -/
structure IsMagnitude (x : Float) : Prop where
  number : x.isNaN = false
  nonneg : 0 ≤ x

/-- A number that is neither zero nor infinite. -/
def isRegular : UnpackedFloat → Bool
  | .finite _ _ _ _ => true
  | _ => false

section Numbers

variable {spec : Format} {x y : UnpackedFloat}

/-- A choice between two numbers is a number. -/
theorem isNaN_ite {condition : Prop} [Decidable condition]
    (hx : condition → x.isNaN = false) (hy : ¬condition → y.isNaN = false) :
    (if condition then x else y).isNaN = false := by
  split_ifs with h
  · exact hx h
  · exact hy h

/-- A choice between two numbers is a number. -/
theorem isNaN_dite {condition : Prop} [Decidable condition] {x : condition → UnpackedFloat}
    {y : ¬condition → UnpackedFloat} (hx : ∀ h, (x h).isNaN = false)
    (hy : ∀ h, (y h).isNaN = false) :
    (if h : condition then x h else y h).isNaN = false := by
  split_ifs with h
  · exact hx h
  · exact hy h

/-- What is packed with an exponent of which not all bits are set is a number. -/
theorem isNaN_unpack_components {sign : UnpackedFloat.Sign} {exponent : BitVec spec.exponentBits}
    {mantissa : BitVec spec.mantissaBitsWithoutImplicit}
    (hnumber : exponent ≠ -BitVec.ofNat spec.exponentBits 1 ∨ mantissa = 0) :
    (UnpackedFloat.unpack spec
      (UnpackedFloat.packComponents spec sign exponent mantissa)).isNaN = false := by
  delta UnpackedFloat.unpack
  dsimp only
  apply isNaN_ite
  · intro hones
    apply isNaN_ite
    · exact fun _ => rfl
    · intro hzero
      rw [UnpackedFloat.unpackExponent_packComponents] at hones
      rw [UnpackedFloat.unpackMantissa_packComponents] at hzero
      exact absurd hnumber (not_or.mpr ⟨not_not_intro hones, hzero⟩)
  · intro _
    apply isNaN_ite
    · exact fun _ => isNaN_dite (fun _ => rfl) fun _ => rfl
    · exact fun _ => rfl

/-- An exponent that is smaller than the largest one has a bit that is not set. -/
theorem ofNat_ne_ones {width exponent : Nat} (hsmall : exponent + 1 < 2 ^ width) :
    BitVec.ofNat width exponent ≠ -BitVec.ofNat width 1 := by
  intro heq
  have hbits := congrArg BitVec.toNat heq
  rw [BitVec.toNat_ofNat, Nat.mod_eq_of_lt (by omega), BitVec.neg_one_eq_allOnes,
    BitVec.toNat_allOnes] at hbits
  omega

/-- Packing makes no number into something else. -/
theorem isNaN_unpack_pack (hnumber : x.isNaN = false) :
    (UnpackedFloat.unpack .binary64 (UnpackedFloat.pack .binary64 x)).isNaN = false := by
  cases x with
  | notANumber => cases hnumber
  | infinity sign => exact isNaN_unpack_components (.inr rfl)
  | zero sign => exact isNaN_unpack_components (.inl (by decide))
  | finite sign mantissa exponent =>
    unfold UnpackedFloat.pack
    dsimp only
    split_ifs with hlarge
    · exact isNaN_unpack_components (.inr rfl)
    · exact isNaN_unpack_components (.inl (ofNat_ne_ones (by omega)))
    · exact isNaN_unpack_components (.inl (by decide))

/-- Rounding leads to a number. -/
theorem isNaN_roundWithAccuracy (sign : UnpackedFloat.Sign) (mantissa : Nat) (exponent : Int)
    (accuracy : UnpackedFloat.Accuracy) :
    (UnpackedFloat.roundWithAccuracy spec sign mantissa exponent accuracy).isNaN = false := by
  delta UnpackedFloat.roundWithAccuracy
  dsimp only
  exact isNaN_dite (fun _ => rfl) fun _ => rfl

/-- Multiplying a number by a regular one leads to a number. -/
theorem isNaN_mul (hx : x.isNaN = false) (hy : isRegular y) :
    (UnpackedFloat.mul spec x y).isNaN = false := by
  cases y with
  | finite =>
    cases x with
    | notANumber => cases hx
    | infinity | zero => rfl
    | finite => exact isNaN_roundWithAccuracy _ _ _ _
  | _ => cases hy

/-- Dividing a number by a regular one leads to a number. -/
theorem isNaN_div (hx : x.isNaN = false) (hy : isRegular y) :
    (UnpackedFloat.div spec x y).isNaN = false := by
  cases y with
  | finite =>
    cases x with
    | notANumber => cases hx
    | infinity | zero => rfl
    | finite => exact isNaN_roundWithAccuracy _ _ _ _
  | _ => cases hy

/-- Digits and an exponent stand for a number. -/
theorem isNaN_ofScientific (digits : Nat) (exponent : Int) :
    (UnpackedFloat.ofScientific spec digits exponent).isNaN = false := by
  delta UnpackedFloat.ofScientific
  apply isNaN_dite
  · exact fun _ => rfl
  · intro _
    refine isNaN_ite (fun _ => rfl) fun _ => isNaN_ite (fun _ => rfl) fun _ => ?_
    exact isNaN_ite (fun _ => isNaN_mul rfl rfl) fun _ => isNaN_div rfl rfl

/-- A natural number stands for a number. -/
theorem isNaN_ofNat (number : Nat) : (UnpackedFloat.ofNat spec number).isNaN = false := by
  unfold UnpackedFloat.ofNat UnpackedFloat.ofInt UnpackedFloat.normalize
  split
  · exact isNaN_roundWithAccuracy _ _ _ _
  · rfl
  · exact isNaN_roundWithAccuracy _ _ _ _

end Numbers

/-- The powers of ten that are doubles are neither zero nor infinite. -/
theorem isRegular_powerOfTen {x : Float} (hx : x ∈ Float.exactlyRepresentablePowersOfTen) :
    isRegular x.toModel.unpack := by
  have hall : ∀ x ∈ Float.exactlyRepresentablePowersOfTen.toList,
      isRegular x.toModel.unpack = true := by decide +kernel
  exact hall x (Array.mem_toList_iff.mpr hx)

/-- Digits and a power of ten denote a number. -/
theorem isNaN_float_ofScientific (digits : Nat) (down : Bool) (exponent : Nat) :
    (Float.ofScientific digits down exponent).isNaN = false := by
  unfold Float.ofScientific
  by_cases hsmall : digits < 2 ^ 53 ∧ exponent ≤ 22
  · rw [dif_pos hsmall]
    have hdigits : digits.toUInt64.toFloat.isNaN = false := isNaN_unpack_pack (isNaN_ofNat _)
    have hpower := isRegular_powerOfTen (Array.getElem_mem (show exponent < 23 by omega))
    dsimp only
    split_ifs
    · exact isNaN_unpack_pack (isNaN_div hdigits hpower)
    · exact isNaN_unpack_pack (isNaN_mul hdigits hpower)
  · rw [dif_neg hsmall]
    exact isNaN_unpack_pack (isNaN_ofScientific _ _)

/-- A number whose sign bit is clear is not negative. -/
theorem Unsigned.isMagnitude {x : Float} (hunsigned : Unsigned x) (hnumber : x.isNaN = false) :
    IsMagnitude x := by
  refine ⟨hnumber, ?_⟩
  change x.toModel.unpack.isNaN = false at hnumber
  have hzero : (0 : Float).toModel.unpack = .zero .positive := rfl
  have hsign : signOf x.toModel.unpack = .positive := signOf_unpack hunsigned
  refine decide_eq_true ?_
  change UnpackedFloat.le (0 : Float).toModel.unpack x.toModel.unpack = true
  rw [hzero]
  cases hx : x.toModel.unpack with
  | notANumber =>
    rw [hx] at hnumber
    cases hnumber
  | infinity sign | zero sign | finite sign =>
    rw [hx] at hsign
    cases hsign
    rfl

/-- A decimal is read as a number that is not negative. -/
theorem Decimal.isMagnitude_toFloat (decimal : Decimal) : IsMagnitude decimal.toFloat := by
  refine decimal.unsigned_toFloat.isMagnitude ?_
  unfold Decimal.toFloat
  dsimp only
  split_ifs
  · exact isNaN_float_ofScientific _ _ _
  · decide +kernel
  · exact isNaN_float_ofScientific _ _ _
  · exact isNaN_float_ofScientific _ _ _

/-- A digit has no lower case of its own. -/
theorem toLower_of_isDigit {c : Char} (hdigit : c.isDigit) : c.toLower = c := by
  simp only [Char.isDigit, Bool.and_eq_true, decide_eq_true_eq] at hdigit
  unfold Char.toLower
  rw [dif_neg]
  rintro ⟨hlow, -⟩
  exact absurd (UInt32.le_trans hlow hdigit.2) (by decide)

/-- A text that begins with a digit is not a word that begins with a letter. -/
theorem lower_ne_word {c letter : Char} {text rest : List Char} (hdigit : c.isDigit)
    (hletter : letter.isDigit = false) :
    String.ofList ((c :: text).map Char.toLower) ≠ String.ofList (letter :: rest) := by
  intro heq
  have hhead := (List.cons.inj (String.ofList_injective heq)).1
  rw [toLower_of_isDigit hdigit] at hhead
  rw [hhead, hletter] at hdigit
  cases hdigit

/-- A text that begins with a digit is read as a number that is not negative. -/
theorem isMagnitude_of_read {c : Char} {text : List Char} {x : Float} (hdigit : c.isDigit)
    (hread : readNumber? (c :: text) = some x) : IsMagnitude x := by
  have hunsigned : readMagnitude? (c :: text) = some x := by
    unfold readNumber? at hread
    split at hread
    · next heq =>
      rw [(List.cons.inj heq).1] at hdigit
      cases hdigit
    · next heq =>
      rw [(List.cons.inj heq).1] at hdigit
      cases hdigit
    · exact hread
  unfold readMagnitude? at hunsigned
  dsimp only at hunsigned
  rw [if_neg (not_or.mpr ⟨lower_ne_word hdigit rfl, lower_ne_word hdigit rfl⟩),
    if_neg (lower_ne_word hdigit rfl)] at hunsigned
  obtain ⟨decimal, -, rfl⟩ := Option.map_eq_some_iff.mp hunsigned
  exact decimal.isMagnitude_toFloat

end Kestrel
