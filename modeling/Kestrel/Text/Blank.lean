import Kestrel.Text.CodeRange

/-!
# White space in text

The characters with the property `White_Space`, at which text is trimmed and cut into words.
-/

namespace Kestrel

/-- The characters with the property `White_Space`. -/
def whiteSpaceRanges : List CodeRange :=
  [⟨0x9, 0xd⟩, ⟨0x20, 0x20⟩, ⟨0x85, 0x85⟩, ⟨0xa0, 0xa0⟩, ⟨0x1680, 0x1680⟩, ⟨0x2000, 0x200a⟩,
    ⟨0x2028, 0x2029⟩, ⟨0x202f, 0x202f⟩, ⟨0x205f, 0x205f⟩, ⟨0x3000, 0x3000⟩]

/-- Whether a character is white space. -/
def isWhiteSpace (c : Char) : Bool := inRanges whiteSpaceRanges c

/-- A text without the white space at its ends. -/
def trimmed (text : List Char) : List Char :=
  ((text.dropWhile isWhiteSpace).reverse.dropWhile isWhiteSpace).reverse

/-- The first word of a text; empty if the text is all white space. -/
def firstWord (text : List Char) : List Char :=
  (text.dropWhile isWhiteSpace).takeWhile fun c => !isWhiteSpace c

end Kestrel
