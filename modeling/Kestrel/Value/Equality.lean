import Kestrel.Value.Display

/-!
# Equality of values

Numbers, texts, booleans and errors are compared by what they are, arrays and dictionaries by what
they hold, and all else by identity. Values of different types are never equal.
-/

namespace Kestrel

namespace Value

/-- Whether two values are equal, taking for granted the pairs that are being compared around
them. Pairs are nested at most `depth` deep. -/
def equalsWithin (store : Store) : Nat → List (Value × Value) → Value → Value → Bool
  | 0, _, _, _ => false
  | depth + 1, pending, left, right =>
    let inside := equalsWithin store depth ((left, right) :: pending)
    match left, right with
    | number a, number b => a == b
    | text a, text b => a.content store == b.content store
    | array a, array b =>
      if a = b ∨ (left, right) ∈ pending then true
      else
        let xs := (store.get a).toList
        let ys := (store.get b).toList
        xs.length == ys.length && (xs.zip ys).all fun pair => inside pair.1 pair.2
    | dictionary a, dictionary b =>
      if a = b ∨ (left, right) ∈ pending then true
      else
        let xs := store.get a
        let ys := store.get b
        xs.size == ys.size && xs.entries.all fun entry =>
          match ys.get? entry.1 with
          | some other => inside entry.2 other
          | none => false
    | bool a, bool b => a == b
    | nothing, nothing => true
    | error k m, error k' m' => k == k' && m == m'
    | struct a, struct b => a == b
    | object a, object b => a == b
    | function a, function b => a == b
    | native a, native b => a == b
    | exports a, exports b => a == b
    | _, _ => false

/-- How many different pairs of containers there are. -/
def pairBound (store : Store) : Nat :=
  store.size .array * store.size .array + store.size .dictionary * store.size .dictionary

/-- Whether two values are equal. -/
def equals (store : Store) (left right : Value) : Bool :=
  equalsWithin store (pairBound store + 2) [] left right

end Value

end Kestrel
