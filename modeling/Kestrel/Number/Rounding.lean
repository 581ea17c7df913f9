import Kestrel.Number.Binary

/-!
# Whole numbers among the doubles

Rounding to whole numbers and remainders, computed exactly on mantissa and exponent. A result keeps
the sign of its operand, so that zero can be negative.
-/

namespace Kestrel

namespace Binary

/-- Whether `mantissa * 2 ^ exponent` is a whole number. -/
def isWhole (mantissa : Nat) (exponent : Int) : Bool :=
  mantissa % twoTo (-exponent).toNat == 0

/-- The bits of a double that equals `mantissa * 2 ^ exponent`, for one that exists. -/
def magnitudeBits (mantissa : Nat) (exponent : Int) : Nat :=
  let room := fractionBits - mantissa.log2
  let shift := min room (exponent - leastExponent).toNat
  let scaled := mantissa * twoTo shift
  let biased := (exponent - shift - leastExponent).toNat + 1
  if scaled < twoTo fractionBits then scaled
  else biased * twoTo fractionBits + (scaled - twoTo fractionBits)

/-- The distance between the doubles around a whole number, or one if that is less than one. -/
def spacing (number : Nat) : Nat := twoTo (number.log2 - fractionBits)

/-- The whole number nearest to `number` that is a double; of two, the one at an even place. -/
def nearest (number : Nat) : Nat :=
  let unit := spacing number
  let place := number / unit
  let rest := number % unit
  if 2 * rest < unit ∨ 2 * rest = unit ∧ place % 2 = 0 then place * unit else (place + 1) * unit

/-- The sum of two whole numbers as a double. -/
def sum (x y : Int) : Int :=
  if 0 ≤ x + y then nearest (x + y).natAbs else -(nearest (x + y).natAbs : Int)

/-- The double that equals `mantissa * 2 ^ exponent` up to its sign, for one that exists. -/
def signed (negative : Bool) (mantissa : Nat) (exponent : Int) : Float :=
  let bits := if mantissa = 0 then 0 else magnitudeBits mantissa exponent
  Float.ofBits (UInt64.ofNat (if negative then twoTo 63 + bits else bits))

end Binary

/-- The largest whole number that is not greater. -/
def roundDown (x : Float) : Float :=
  match Binary.ofFloat x with
  | .finite negative mantissa exponent =>
    if Binary.isWhole mantissa exponent then x
    else
      let whole := Binary.whole mantissa exponent
      Binary.signed negative (if negative then whole + 1 else whole) 0
  | _ => x

/-- The smallest whole number that is not less. -/
def roundUp (x : Float) : Float :=
  match Binary.ofFloat x with
  | .finite negative mantissa exponent =>
    if Binary.isWhole mantissa exponent then x
    else
      let whole := Binary.whole mantissa exponent
      Binary.signed negative (if negative then whole else whole + 1) 0
  | _ => x

/-- The nearest whole number; a half goes away from zero. -/
def roundNearest (x : Float) : Float :=
  match Binary.ofFloat x with
  | .finite negative mantissa exponent =>
    if Binary.isWhole mantissa exponent then x
    else Binary.signed negative ((Binary.whole mantissa (exponent + 1) + 1) / 2) 0
  | _ => x

/-- A number without its sign. -/
def magnitude (x : Float) : Float :=
  match Binary.ofFloat x with
  | .finite _ mantissa exponent => Binary.signed false mantissa exponent
  | .infinite _ => 1 / 0
  | .nan => x

/-- What remains of `x` after taking away as many `y` as go into it whole, with the sign of `x`. -/
def remainder (x y : Float) : Float :=
  match Binary.ofFloat x, Binary.ofFloat y with
  | .finite negative m e, .finite _ n f =>
    if n = 0 then 0 / 0
    else
      let unit := min e f
      let left := m * Binary.twoTo (e - unit).toNat
      let right := n * Binary.twoTo (f - unit).toNat
      Binary.signed negative (left % right) unit
  | .finite _ _ _, .infinite _ => x
  | _, _ => 0 / 0

/-- The lesser number; one that is not a number gives way to the other. -/
def lesser (x y : Float) : Float :=
  if x.isNaN then y else if y < x then y else x

/-- The greater number; one that is not a number gives way to the other. -/
def greater (x y : Float) : Float :=
  if x.isNaN then y else if x < y then y else x

end Kestrel
