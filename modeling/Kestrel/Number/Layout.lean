import Kestrel.Number.Shortest

/-!
# How numbers are written

The digits of a number are its shortest decimal. A layout says how they are set.
-/

namespace Kestrel

/-- The decisions about the text of a number. -/
structure NumberLayout where
  /-- Whether a whole number written positionally ends in `.0`. -/
  pointZero : Bool
  /-- The powers of ten of the leading digit that are written positionally; others get an
  exponent. Without bounds every number is written positionally. -/
  positional : Option (Int × Int)
  deriving DecidableEq, Repr

namespace NumberLayout

/-- Plain text never has an exponent. -/
def plain : NumberLayout := ⟨false, none⟩

/-- Outlines show that a number is no integer, and give an exponent to those below `1e-4` and those
from `1e16` on. -/
def outline : NumberLayout := ⟨true, some (-4, 15)⟩

/-- Digits with a point inside or zeros beside them: the decimal `digits * 10 ^ exponent`. -/
private def setPositional (pointZero : Bool) (digits : List Char) (exponent : Int) : List Char :=
  if 0 ≤ exponent then
    digits ++ List.replicate exponent.toNat '0' ++ (if pointZero then ['.', '0'] else [])
  else
    let places := (-exponent).toNat
    if digits.length ≤ places then
      '0' :: '.' :: (List.replicate (places - digits.length) '0' ++ digits)
    else digits.take (digits.length - places) ++ '.' :: digits.drop (digits.length - places)

/-- One digit before the point, and the power of ten after an `e`. -/
private def setScientific (digits : List Char) (leading : Int) : List Char :=
  let fraction := digits.drop 1
  digits.take 1 ++ (if fraction.isEmpty then [] else '.' :: fraction) ++
    'e' :: (toString leading).toList

/-- The text of a decimal. -/
def setDecimal (layout : NumberLayout) (decimal : Decimal) : List Char :=
  let digits := Nat.toDigits 10 decimal.digits
  let leading := decimal.exponent + (digits.length : Int) - 1
  let isPositional := match layout.positional with
    | none => true
    | some (low, high) => low ≤ leading && leading ≤ high
  if isPositional then setPositional layout.pointZero digits decimal.exponent
  else setScientific digits leading

/-- The text of a number's size, without its sign. -/
def setMagnitude (layout : NumberLayout) (mantissa : Nat) (exponent : Int) : List Char :=
  if mantissa = 0 then setPositional layout.pointZero ['0'] 0
  else layout.setDecimal (.shortest mantissa exponent)

/-- The text of a number. -/
def format (layout : NumberLayout) (x : Float) : String :=
  match Binary.ofFloat x with
  | .nan => "NaN"
  | .infinite negative => if negative then "-inf" else "inf"
  | .finite negative mantissa exponent =>
    let magnitude := layout.setMagnitude mantissa exponent
    String.ofList (if negative then '-' :: magnitude else magnitude)

end NumberLayout

/-- The text of a number in the language: both zeros are written alike. -/
def numberText (x : Float) : String :=
  match Binary.ofFloat x with
  | .finite _ 0 _ => "0"
  | _ => NumberLayout.plain.format x

end Kestrel
