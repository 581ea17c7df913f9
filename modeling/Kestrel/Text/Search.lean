/-!
# Searching text

Text is searched from the left, and found places are counted in characters.
-/

namespace Kestrel

/-- The first place at which `needle` occurs in a text. -/
def findText (needle : List Char) : List Char → Option Nat
  | [] => if needle.isEmpty then some 0 else none
  | c :: rest =>
    if needle.isPrefixOf (c :: rest) then some 0 else (findText needle rest).map (· + 1)

/-- Cuts a text at every occurrence of a separator. `skip` characters still belong to the last
occurrence, and `part` holds the current part, last character first. -/
def splitFrom (separator : List Char) (skip : Nat) (part : List Char) :
    List Char → List (List Char)
  | [] => [part.reverse]
  | c :: rest =>
    match skip with
    | skip + 1 => splitFrom separator skip part rest
    | 0 =>
      if separator.isPrefixOf (c :: rest) then
        part.reverse :: splitFrom separator (separator.length - 1) [] rest
      else splitFrom separator 0 (c :: part) rest

/-- The parts of a text between the occurrences of a separator, which do not overlap. The empty
separator cuts between all characters. -/
def splitText (separator text : List Char) : List (List Char) :=
  if separator.isEmpty then text.map fun c => [c] else splitFrom separator 0 [] text

end Kestrel
