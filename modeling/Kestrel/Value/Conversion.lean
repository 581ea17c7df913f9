import Kestrel.Number.Reading
import Kestrel.Text.Blank
import Kestrel.Value.Display

/-!
# Conversions

What a value is as a number and as a truth value.
-/

namespace Kestrel

namespace Value

/-- A value as a number: booleans count as one and zero, and a text is read as a number. -/
def toNumber (store : Store) : Value → Except Cause Float
  | number n => .ok n
  | bool b => .ok (if b then 1 else 0)
  | text s =>
    let content := s.content store
    match readNumber? (trimmed content.toList) with
    | some n => .ok n
    | none => .error (.noConversion ("\"" ++ content ++ "\"") "Number")
  | other => .error (.noConversion other.typeName "Number")

/-- A value as a truth value: numbers, texts and arrays are true. -/
def toBool : Value → Except Cause Bool
  | bool b => .ok b
  | number _ | text _ | array _ => .ok true
  | other => .error (.noConversion other.typeName "Bool")

end Value

end Kestrel
