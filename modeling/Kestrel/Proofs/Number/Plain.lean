import Kestrel.Number.Layout
import Kestrel.Proofs.Number.Shortest
import Kestrel.Proofs.Number.Unpacked
import Mathlib.Data.List.TakeWhile

/-!
# Plain text of numbers

The plain text of a number's size is its shortest decimal, written with digits and perhaps a point.
The decimal can be read from it, and the decimal is that of one double only, so different numbers
have different texts.
-/

namespace Kestrel

namespace Binary

/-- A finite number is given by the mantissa and the exponent of a double. -/
theorem isParts_of_ofFloat {x : Float} {negative : Bool} {mantissa : Nat} {exponent : Int}
    (hfinite : ofFloat x = .finite negative mantissa exponent) : IsParts mantissa exponent := by
  have hbits : x.toBits.toNat / twoTo fractionBits % twoTo 11 < 2048 := Nat.mod_lt _ (by decide)
  have hfraction : x.toBits.toNat % twoTo fractionBits < 2 ^ 52 := Nat.mod_lt _ (by decide)
  have hleading : twoTo fractionBits = 2 ^ 52 := rfl
  unfold ofFloat ofBits at hfinite
  dsimp only at hfinite
  split_ifs at hfinite with hlargest hzero hleast
  · cases hfinite
    exact ⟨by omega, le_refl _, by decide, fun h => absurd h (lt_irrefl _)⟩
  · cases hfinite
    unfold leastExponent
    refine ⟨by omega, ?_, ?_, fun _ => by omega⟩
    · unfold leastExponent
      omega
    · omega

/-- The bits of a double that is a number are known by its exact meaning. -/
theorem ofBits_injective {first second : Nat} (hfirst : first < 2 ^ 64) (hsecond : second < 2 ^ 64)
    (hnumber : ofBits first ≠ .nan) (hsame : ofBits first = ofBits second) : first = second := by
  have hhalf : twoTo 63 = 2 ^ 63 := rfl
  have hleading : twoTo fractionBits = 2 ^ 52 := rfl
  have hexponents : twoTo 11 = 2 ^ 11 := rfl
  unfold ofBits at hnumber hsame
  dsimp only at hnumber hsame
  rw [hhalf, hleading, hexponents] at hnumber hsame
  have hsign (left right : Nat) (hsign : (left == 1) = (right == 1)) : left = 1 ↔ right = 1 := by
    rw [← beq_iff_eq, hsign, beq_iff_eq]
  split_ifs at hnumber hsame <;> simp only [Binary.infinite.injEq, Binary.finite.injEq,
    reduceCtorEq, ne_eq, not_true_eq_false] at hnumber hsame
  · have hnegative := hsign _ _ hsame
    omega
  · obtain ⟨hnegative, hmantissa, -⟩ := hsame
    have hnegative := hsign _ _ hnegative
    omega
  · omega
  · omega
  · obtain ⟨hnegative, hmantissa, hexponent⟩ := hsame
    have hnegative := hsign _ _ hnegative
    omega

open Float.Model in
/-- The exact meaning of a number is none of what is not a number. -/
theorem ofFloat_ne_nan {x : Float} (hnumber : x.isNaN = false) : ofFloat x ≠ .nan := by
  change x.toModel.unpack.isNaN = false at hnumber
  rw [ofFloat_eq]
  intro hnan
  cases hunpacked : x.toModel.unpack with
  | notANumber =>
    rw [hunpacked] at hnumber
    cases hnumber
  | _ =>
    rw [hunpacked] at hnan
    cases hnan

/-- A number is known by its exact meaning. -/
theorem ofFloat_injective {x y : Float} (hnumber : ofFloat x ≠ .nan)
    (hsame : ofFloat x = ofFloat y) :
    x = y := by
  have hbits : x.toBits = y.toBits :=
    UInt64.toNat_inj.mp (ofBits_injective x.toBits.toNat_lt y.toBits.toNat_lt hnumber hsame)
  obtain ⟨⟨first, hfirst⟩⟩ := x
  obtain ⟨⟨second, hsecond⟩⟩ := y
  change first = second at hbits
  subst hbits
  rfl

end Binary

/-- The number that a text of digits, perhaps with a point among them, stands for. -/
def pointValue (text : List Char) : ℚ :=
  Nat.ofDigitChars 10 (text.filter (· != '.')) 0 / 10 ^ (text.dropWhile (· != '.')).tail.length

/-- Digits and a point. -/
def IsPointed (text : List Char) : Prop :=
  text.head?.any Char.isDigit ∧ ∀ c ∈ text, c.isDigit ∨ c = '.'

section Point

variable {text whole fraction : List Char}

/-- There is no point among digits. -/
theorem ne_point_of_isDigit (htext : ∀ c ∈ text, c.isDigit) : ∀ c ∈ text, (c != '.') = true := by
  intro c hc
  have hdigit := htext c hc
  rw [bne_iff_ne]
  rintro rfl
  cases hdigit

/-- A row of digits stands for its value. -/
theorem pointValue_digits (hwhole : ∀ c ∈ whole, c.isDigit) :
    pointValue whole = Nat.ofDigitChars 10 whole 0 := by
  have hpoint := ne_point_of_isDigit hwhole
  unfold pointValue
  rw [List.filter_eq_self.mpr hpoint, List.dropWhile_eq_nil_iff.mpr hpoint]
  simp

/-- A point among digits divides their value by a power of ten. -/
theorem pointValue_point (hwhole : ∀ c ∈ whole, c.isDigit) (hfraction : ∀ c ∈ fraction, c.isDigit) :
    pointValue (whole ++ '.' :: fraction) =
      Nat.ofDigitChars 10 (whole ++ fraction) 0 / 10 ^ fraction.length := by
  have hwhole := ne_point_of_isDigit hwhole
  unfold pointValue
  rw [List.filter_append, List.filter_eq_self.mpr hwhole, List.filter_cons_of_neg (by simp),
    List.filter_eq_self.mpr (ne_point_of_isDigit hfraction), List.dropWhile_append_of_pos hwhole,
    List.dropWhile_cons_of_neg (by simp), List.tail_cons]

/-- A row of digits that is not empty. -/
theorem isPointed_digits (hne : whole ≠ []) (hwhole : ∀ c ∈ whole, c.isDigit) :
    IsPointed whole := by
  refine ⟨?_, fun c hc => .inl (hwhole c hc)⟩
  obtain ⟨first, others, rfl⟩ := List.exists_cons_of_ne_nil hne
  exact hwhole first List.mem_cons_self

/-- Digits around a point. -/
theorem isPointed_point (hne : whole ≠ []) (hwhole : ∀ c ∈ whole, c.isDigit)
    (hfraction : ∀ c ∈ fraction, c.isDigit) : IsPointed (whole ++ '.' :: fraction) := by
  constructor
  · obtain ⟨first, others, rfl⟩ := List.exists_cons_of_ne_nil hne
    exact hwhole first List.mem_cons_self
  · intro c hc
    rcases List.mem_append.mp hc with hc | hc
    · exact .inl (hwhole c hc)
    · exact (List.mem_cons.mp hc).symm.imp_left (hfraction c)

end Point

namespace NumberLayout

/-- A decimal in plain text. -/
theorem setDecimal_plain (decimal : Decimal) : plain.setDecimal decimal =
    let digits := Nat.toDigits 10 decimal.digits
    let places := (-decimal.exponent).toNat
    if 0 ≤ decimal.exponent then digits ++ List.replicate decimal.exponent.toNat '0' ++ []
    else if digits.length ≤ places then
      '0' :: '.' :: (List.replicate (places - digits.length) '0' ++ digits)
    else digits.take (digits.length - places) ++ '.' :: digits.drop (digits.length - places) := rfl

/-- Digits around a point stand for the decimal that has those digits and as many places. -/
theorem plain_point {decimal : Decimal} {whole fraction : List Char} (hne : whole ≠ [])
    (hwhole : ∀ c ∈ whole, c.isDigit) (hfraction : ∀ c ∈ fraction, c.isDigit)
    (hdigits : Nat.ofDigitChars 10 (whole ++ fraction) 0 = decimal.digits)
    (hplaces : decimal.exponent = -fraction.length) :
    IsPointed (whole ++ '.' :: fraction) ∧
      pointValue (whole ++ '.' :: fraction) = decimal.value := by
  refine ⟨isPointed_point hne hwhole hfraction, ?_⟩
  rw [pointValue_point hwhole hfraction, hdigits, Decimal.value, hplaces, zpow_neg, zpow_natCast]
  exact div_eq_mul_inv _ _

/-- The plain text of a decimal is made of digits and a point, and stands for the decimal. -/
theorem plain_decimal (decimal : Decimal) :
    IsPointed (plain.setDecimal decimal) ∧
      pointValue (plain.setDecimal decimal) = decimal.value := by
  have hdigits : ∀ c ∈ Nat.toDigits 10 decimal.digits, c.isDigit :=
    fun c hc => Nat.isDigit_of_mem_toDigits (by decide) (by decide) hc
  have hzeros (count : Nat) : ∀ c ∈ List.replicate count '0', c.isDigit := by
    intro c hc
    rw [List.eq_of_mem_replicate hc]
    rfl
  have hvalue : Nat.ofDigitChars 10 (Nat.toDigits 10 decimal.digits) 0 = decimal.digits :=
    Nat.ofDigitChars_ten_toDigits
  have hne : Nat.toDigits 10 decimal.digits ≠ [] := Nat.toDigits_ne_nil
  rw [setDecimal_plain]
  dsimp only
  split_ifs with hexponent hplaces
  · -- Zeros follow the digits, and there is no point.
    rw [List.append_nil]
    have hall := List.forall_mem_append.mpr ⟨hdigits, hzeros decimal.exponent.toNat⟩
    refine ⟨isPointed_digits (List.append_ne_nil_of_left_ne_nil hne _) hall, ?_⟩
    rw [pointValue_digits hall, Nat.ofDigitChars_append, hvalue, Nat.ofDigitChars_replicate_zero]
    obtain ⟨n, hn⟩ := Int.eq_ofNat_of_zero_le hexponent
    rw [Decimal.value, hn, Int.toNat_natCast, zpow_natCast]
    push_cast
    ring
  · -- All digits stand behind the point, and zeros between.
    have hfraction := List.forall_mem_append.mpr
      ⟨hzeros ((-decimal.exponent).toNat - (Nat.toDigits 10 decimal.digits).length), hdigits⟩
    refine @plain_point decimal ['0'] _ (List.cons_ne_nil _ _) (List.forall_mem_singleton.mpr rfl)
      hfraction ?_ ?_
    · rw [List.singleton_append, Nat.ofDigitChars_cons, Nat.ofDigitChars_append,
        Nat.ofDigitChars_replicate_zero]
      exact hvalue
    · rw [List.length_append, List.length_replicate]
      omega
  · -- The point stands among the digits.
    refine plain_point (List.ne_nil_of_length_pos ?_)
      (fun c hc => hdigits c (List.mem_of_mem_take hc))
      (fun c hc => hdigits c (List.mem_of_mem_drop hc)) ?_ ?_
    · rw [List.length_take]
      omega
    · rw [List.take_append_drop, hvalue]
    · rw [List.length_drop]
      omega

section Magnitude

variable {m n : Nat} {e f : Int}

/-- The plain text of a number's size is made of digits and a point. -/
theorem isPointed_setMagnitude (m : Nat) (e : Int) : IsPointed (plain.setMagnitude m e) := by
  unfold setMagnitude
  split_ifs
  · exact ⟨rfl, List.forall_mem_singleton.mpr (.inl rfl)⟩
  · exact (plain_decimal _).1

/-- The plain text of a number's size stands for a number in the range of the double, and for zero
only if the number is zero. -/
theorem pointValue_setMagnitude (hparts : Binary.IsParts m e) :
    (m = 0 ∧ pointValue (plain.setMagnitude m e) = 0) ∨
      (0 < m ∧ (ReadingRange.ofDouble m e).Holds (pointValue (plain.setMagnitude m e))) := by
  unfold setMagnitude
  split_ifs with hzero
  · refine .inl ⟨hzero, ?_⟩
    exact (pointValue_digits (List.forall_mem_singleton.mpr rfl)).trans (by decide)
  · rw [(plain_decimal _).2]
    exact .inr ⟨Nat.pos_of_ne_zero hzero, holds_shortest hparts (Nat.pos_of_ne_zero hzero)⟩

/-- The plain text of a number's size is that of one double only. -/
theorem parts_eq_of_setMagnitude (hfirst : Binary.IsParts m e) (hsecond : Binary.IsParts n f)
    (hsame : plain.setMagnitude m e = plain.setMagnitude n f) : m = n ∧ e = f := by
  have hfirst' := pointValue_setMagnitude hfirst
  have hsecond' := pointValue_setMagnitude hsecond
  rw [← hsame] at hsecond'
  rcases hfirst' with ⟨rfl, hzero⟩ | ⟨hm, hholds⟩ <;>
    rcases hsecond' with ⟨rfl, hzero'⟩ | ⟨hn, hholds'⟩
  · have hleast (g : Int) (hparts : Binary.IsParts 0 g) : g = Binary.leastExponent := by
      by_contra hne
      have hleading := hparts.leading (lt_of_le_of_ne hparts.least (Ne.symm hne))
      omega
    exact ⟨rfl, (hleast e hfirst).trans (hleast f hsecond).symm⟩
  · exact absurd hzero (pos_of_holds hn hholds').ne'
  · exact absurd hzero' (pos_of_holds hm hholds).ne'
  · exact parts_eq_of_holds hfirst hsecond hholds hholds'

end Magnitude

section Format

variable {x y : Float}

/-- The plain text of a number is its sign, if it is negative, and the word for infinity or the text
of its size. -/
theorem plain_format_eq (hnumber : x.isNaN = false) :
    ∃ negative text, (plain.format x).toList = (if negative then '-' :: text else text) ∧
      ((Binary.ofFloat x = .infinite negative ∧ text = "inf".toList) ∨
        ∃ m e, Binary.ofFloat x = .finite negative m e ∧ text = plain.setMagnitude m e) := by
  have hne := Binary.ofFloat_ne_nan hnumber
  unfold format
  cases hx : Binary.ofFloat x with
  | nan => exact absurd hx hne
  | infinite negative =>
    refine ⟨negative, "inf".toList, ?_, .inl ⟨rfl, rfl⟩⟩
    cases negative <;> rfl
  | finite negative mantissa exponent =>
    exact ⟨negative, _, String.toList_ofList, .inr ⟨mantissa, exponent, rfl, rfl⟩⟩

/-- Numbers with the same plain text are the same. -/
theorem plain_format_injective (hx : x.isNaN = false) (hy : y.isNaN = false)
    (hsame : plain.format x = plain.format y) : x = y := by
  obtain ⟨negative, first, hfirst, hx'⟩ := plain_format_eq hx
  obtain ⟨negative', second, hsecond, hy'⟩ := plain_format_eq hy
  rw [hsame, hsecond] at hfirst
  have hpointed (m : Nat) (e : Int) : ∀ c ∈ (plain.setMagnitude m e).head?, c.isDigit := by
    intro c hc
    have hhead := (isPointed_setMagnitude m e).1
    rw [hc] at hhead
    exact hhead
  have hunsigned (number : Float) (sign : Bool) (text : List Char)
      (hcases : (Binary.ofFloat number = .infinite sign ∧ text = "inf".toList) ∨
        ∃ m e, Binary.ofFloat number = .finite sign m e ∧ text = plain.setMagnitude m e) :
      text.head? ≠ some '-' := by
    rcases hcases with ⟨-, rfl⟩ | ⟨m, e, -, rfl⟩
    · decide
    · exact fun hminus => absurd (hpointed m e _ hminus) (by decide)
  obtain ⟨rfl, rfl⟩ : negative' = negative ∧ second = first := by
    have hminus := hunsigned x negative first hx'
    have hminus' := hunsigned y negative' second hy'
    cases negative <;> cases negative'
    · exact ⟨rfl, hfirst⟩
    · exact absurd (congrArg List.head? hfirst).symm hminus
    · exact absurd (congrArg List.head? hfirst) hminus'
    · exact ⟨rfl, (List.cons.inj hfirst).2⟩
  refine Binary.ofFloat_injective (Binary.ofFloat_ne_nan hx) ?_
  rcases hx' with ⟨hx', rfl⟩ | ⟨m, e, hx', rfl⟩ <;>
    rcases hy' with ⟨hy', htext⟩ | ⟨n, f, hy', htext⟩
  · rw [hx', hy']
  · exact absurd (hpointed n f 'i' (htext ▸ rfl)) (by decide)
  · exact absurd (hpointed m e 'i' (htext ▸ rfl)) (by decide)
  · obtain ⟨rfl, rfl⟩ := parts_eq_of_setMagnitude (Binary.isParts_of_ofFloat hx')
      (Binary.isParts_of_ofFloat hy') htext
    rw [hx', hy']

end Format

end NumberLayout

end Kestrel
