import Kestrel.Text.Unprintable

/-!
# Quoted text

Text between quotes, with an escape for every character that would be mistaken or could not be
seen.
-/

namespace Kestrel

namespace Quoted

/-- A character by its code point. -/
def codePoint (c : Char) : List Char :=
  ['\\', 'u', '\x7b'] ++ Nat.toDigits 16 c.toNat ++ ['\x7d']

/-- One character of quoted text. A mark is escaped because it would attach to the character
before it. -/
def escape (c : Char) : List Char :=
  if c = '\x00' then ['\\', '0']
  else if c = '\t' then ['\\', 't']
  else if c = '\n' then ['\\', 'n']
  else if c = '\r' then ['\\', 'r']
  else if c = '"' then ['\\', '"']
  else if c = '\\' then ['\\', '\\']
  else if isUnprintable c || isGraphemeExtend c then codePoint c
  else [c]

/-- The inside of a quoted text. -/
def body (text : List Char) : List Char := text.flatMap escape

end Quoted

/-- A text in quotes. -/
def quoted (text : String) : String :=
  String.ofList ('"' :: (Quoted.body text.toList ++ ['"']))

end Kestrel
