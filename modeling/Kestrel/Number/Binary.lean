/-!
# What a number is

A number is a double. Seen exactly, a finite one is a sign, a natural mantissa and a power of two.
-/

namespace Kestrel

/-- The exact meaning of a double. -/
inductive Binary where
  | nan
  | infinite (negative : Bool)
  /-- The number `mantissa * 2 ^ exponent`, negated if `negative`. -/
  | finite (negative : Bool) (mantissa : Nat) (exponent : Int)
  deriving DecidableEq, Repr, Inhabited

namespace Binary

/-- A power of two. -/
def twoTo (exponent : Nat) : Nat := Nat.pow 2 exponent

/-- The number of bits of a mantissa after its leading one. -/
def fractionBits : Nat := 52

/-- The exponent of the smallest positive double. -/
def leastExponent : Int := -1074

/-- The whole part of `mantissa * 2 ^ exponent`. -/
def whole (mantissa : Nat) (exponent : Int) : Nat :=
  mantissa * twoTo exponent.toNat / twoTo (-exponent).toNat

/-- Takes the bits of a double apart: a sign, eleven bits of exponent and the fraction. -/
def ofBits (bits : Nat) : Binary :=
  let negative := bits / twoTo 63 % 2 == 1
  let exponent := bits / twoTo fractionBits % twoTo 11
  let fraction := bits % twoTo fractionBits
  if exponent = 2047 then if fraction = 0 then .infinite negative else .nan
  else if exponent = 0 then .finite negative fraction leastExponent
  else .finite negative (twoTo fractionBits + fraction) (leastExponent + (exponent - 1 : Nat))

/-- The exact meaning of a number. -/
def ofFloat (x : Float) : Binary := ofBits x.toBits.toNat

end Binary

end Kestrel
