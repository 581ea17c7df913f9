import Kestrel.Fault.Cause
import Kestrel.Number.Rounding

/-!
# Numbers as indices

An index counts from zero, or from the end if it is negative; its fraction does not count. An index
must denote an element, while the bounds of a slice are moved to the nearest place that exists. An
index is a number, and so is the length that it is counted from: beyond the whole numbers that are
doubles both are rounded to one.
-/

namespace Kestrel

/-- A number without its fraction, seen as an index. -/
inductive IndexNumber where
  | nan
  | beforeAll
  | afterAll
  | at (index : Int)
  deriving DecidableEq, Repr

/-- The index that a number stands for. -/
def IndexNumber.ofFloat (x : Float) : IndexNumber :=
  match Binary.ofFloat x with
  | .nan => .nan
  | .infinite negative => if negative then .beforeAll else .afterAll
  | .finite negative mantissa exponent =>
    let whole : Int := Binary.whole mantissa exponent
    .at (if negative then -whole else whole)

/-- Counts a negative index from the end. -/
def fromEnd (index : Int) (length : Nat) : Int :=
  if index < 0 then Binary.sum index (Binary.nearest length) else index

/-- The element that an index denotes among `length` elements. -/
def resolveIndex (index : Float) (length : Nat) : Except Cause Nat :=
  match IndexNumber.ofFloat index with
  | .at whole =>
    let place := fromEnd whole length
    if 0 ≤ place ∧ place < Binary.nearest length then .ok place.toNat
    else .error (.indexOutOfRange index length)
  | _ => .error (.indexOutOfRange index length)

/-- The place between elements that a bound of a slice denotes. -/
def resolveBound (bound : Float) (length : Nat) : Nat :=
  match IndexNumber.ofFloat bound with
  | .nan => 0
  | .beforeAll => 0
  | .afterAll => length
  | .at whole =>
    let place := fromEnd whole length
    if place < Binary.nearest length then place.toNat else length

/-- The places that a slice starts and stops at. A missing end is the end of all elements, and a
slice never stops before it starts. -/
def sliceRange (start : Float) (stop? : Option Float) (length : Nat) : Nat × Nat :=
  let start := resolveBound start length
  let stop := match stop? with
    | none => length
    | some stop => resolveBound stop length
  (start, max start stop)

end Kestrel
