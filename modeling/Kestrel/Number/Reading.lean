import Kestrel.Number.Shortest

/-!
# Reading numbers

The texts that are numbers: an optional sign, then `inf`, `infinity` or `nan` in any case, or
decimal digits with an optional point and an optional exponent. At least one digit stands before
or after the point. The number read is the double nearest to the decimal.
-/

namespace Kestrel

namespace Decimal

/-- Beyond this power of ten every decimal is infinite, and below its negative every one is zero. -/
def exponentBound : Int := 400

/-- The double nearest to a decimal. -/
def toFloat (decimal : Decimal) : Float :=
  if decimal.digits = 0 then 0
  else
    let leading := decimal.exponent + ((Nat.toDigits 10 decimal.digits).length : Int)
    if exponentBound < leading then 1 / 0
    else if leading < -exponentBound then 0
    else Float.ofScientific decimal.digits (decimal.exponent < 0) decimal.exponent.natAbs

end Decimal

/-- The value of a row of digits. -/
def digitsValue (digits : List Char) : Nat :=
  digits.foldl (fun value c => 10 * value + (c.toNat - '0'.toNat)) 0

/-- The exponent at the end of a number: nothing, or a marked whole number up to the end. -/
def readExponent? : List Char → Option Int
  | [] => some 0
  | mark :: rest =>
    if mark != 'e' && mark != 'E' then none
    else
      let (negative, digits) := match rest with
        | '-' :: digits => (true, digits)
        | '+' :: digits => (false, digits)
        | digits => (false, digits)
      if digits.isEmpty || !digits.all Char.isDigit then none
      else some (if negative then -(digitsValue digits : Int) else (digitsValue digits : Int))

/-- An unsigned decimal that fills the whole text. -/
def readDecimal? (text : List Char) : Option Decimal :=
  let whole := text.takeWhile Char.isDigit
  let afterWhole := text.dropWhile Char.isDigit
  let (fraction, afterFraction) := match afterWhole with
    | '.' :: rest => (rest.takeWhile Char.isDigit, rest.dropWhile Char.isDigit)
    | rest => ([], rest)
  if whole.isEmpty && fraction.isEmpty then none
  else (readExponent? afterFraction).map fun exponent =>
    ⟨digitsValue (whole ++ fraction), exponent - (fraction.length : Int)⟩

/-- An unsigned number. -/
def readMagnitude? (text : List Char) : Option Float :=
  let lower := String.ofList (text.map Char.toLower)
  if lower = "inf" ∨ lower = "infinity" then some (1 / 0)
  else if lower = "nan" then some (0 / 0)
  else (readDecimal? text).map Decimal.toFloat

/-- The number that a text denotes, if it denotes one. -/
def readNumber? (text : List Char) : Option Float :=
  match text with
  | '-' :: rest => (readMagnitude? rest).map (- ·)
  | '+' :: rest => readMagnitude? rest
  | _ => readMagnitude? text

end Kestrel
