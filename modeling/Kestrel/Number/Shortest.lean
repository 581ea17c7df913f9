import Kestrel.Number.Binary

/-!
# The shortest decimal that reads back

Every real number that is nearer to a double than to its neighbours is read as that double. Among
the decimals of this kind the ones on the coarsest decimal grid have the fewest digits; of these
the nearest is taken, and the larger of two equally near ones. All comparisons are exact.
-/

namespace Kestrel

/-- A power of ten. -/
def tenTo (exponent : Nat) : Nat := Nat.pow 10 exponent

/-- The decimal `digits * 10 ^ exponent`. -/
structure Decimal where
  digits : Nat
  exponent : Int
  deriving DecidableEq, Repr, Inhabited

/-- The reals that are read as the double `mantissa * 2 ^ exponent`, in quarters of a unit in the
last place. Below a power of two the next double is only half as far away. -/
structure ReadingRange where
  low : Nat
  value : Nat
  high : Nat
  /-- The exponent of the quarter. -/
  exponent : Int
  /-- Whether the ends belong to the range: a half goes to the even mantissa. -/
  inclusive : Bool
  deriving DecidableEq, Repr

namespace ReadingRange

/-- The range of a positive double. -/
def ofDouble (mantissa : Nat) (exponent : Int) : ReadingRange :=
  let closeBelow := mantissa = Binary.twoTo Binary.fractionBits ∧ Binary.leastExponent < exponent
  { low := 4 * mantissa - if closeBelow then 1 else 2
    value := 4 * mantissa
    high := 4 * mantissa + 2
    exponent := exponent - 2
    inclusive := mantissa % 2 == 0 }

/-- What one step of the grid of `10 ^ grid` counts, in a common fraction with `fine`. -/
def coarse (range : ReadingRange) (grid : Int) : Nat :=
  tenTo grid.toNat * Binary.twoTo (-range.exponent).toNat

/-- What one quarter counts, in a common fraction with `coarse`. -/
def fine (range : ReadingRange) (grid : Int) : Nat :=
  Binary.twoTo range.exponent.toNat * tenTo (-grid).toNat

/-- Whether the grid's point number `point` lies in the range. -/
def holds (range : ReadingRange) (grid : Int) (point : Nat) : Bool :=
  let place := point * range.coarse grid
  let low := range.low * range.fine grid
  let high := range.high * range.fine grid
  if range.inclusive then low ≤ place && place ≤ high else low < place && place < high

/-- The nearest point of a grid, if one lies in the range: only the two neighbours of the value
can be nearest. -/
def nearest? (range : ReadingRange) (grid : Int) : Option Nat :=
  let value := range.value * range.fine grid
  let below := value / range.coarse grid
  match range.holds grid below, range.holds grid (below + 1) with
  | false, false => none
  | true, false => some below
  | false, true => some (below + 1)
  | true, true =>
    if value - below * range.coarse grid < (below + 1) * range.coarse grid - value then some below
    else some (below + 1)

end ReadingRange

/-- The grids to try, from one too coarse for the number to one that surely has a point. -/
def decimalGrids (mantissa : Nat) (exponent : Int) : List Int :=
  let bits : Int := exponent + (mantissa.log2 + 1 : Nat)
  let top : Int := bits * 30103 / 100000 + 1
  (List.range 21).map fun (step : Nat) => top - (step : Int)

/-- The shortest decimal that is read as the positive double `mantissa * 2 ^ exponent`. -/
def Decimal.shortest (mantissa : Nat) (exponent : Int) : Decimal :=
  let range := ReadingRange.ofDouble mantissa exponent
  let found := (decimalGrids mantissa exponent).findSome? fun grid =>
    (range.nearest? grid).map fun digits => (⟨digits, grid⟩ : Decimal)
  found.getD default

end Kestrel
