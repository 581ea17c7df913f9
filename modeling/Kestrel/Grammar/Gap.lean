import Kestrel.Source.Cursor

/-!
# Gaps

Between the parts of a spaced rule there may be blanks and comments. A gap is as long as it can
be; it may be empty, so skipping one never fails. A block comment that is never closed is no
comment, and the gap ends before it.
-/

namespace Kestrel

/-- The characters that separate words. -/
def isBlank (c : Char) : Bool := c == ' ' || c == '\t' || c == '\r' || c == '\n'

/-- Where in a gap the reader is. -/
inductive GapState where
  /-- Between comments. -/
  | outside
  /-- In a comment that ends with the line. -/
  | line
  /-- In a comment that ends with its closing mark; `opened` is the place of its opening mark. -/
  | block (opened : Cursor)
  deriving DecidableEq, Repr

/-- Reads on in a gap. -/
def GapState.skip : GapState → List Char → Position → Cursor
  | .outside, [], position => ⟨[], position⟩
  | .outside, '/' :: '/' :: rest, position =>
    GapState.line.skip rest ((position.after '/').after '/')
  | .outside, '/' :: '*' :: rest, position =>
    (GapState.block ⟨'/' :: '*' :: rest, position⟩).skip rest ((position.after '/').after '*')
  | .outside, c :: rest, position =>
    if isBlank c then GapState.outside.skip rest (position.after c) else ⟨c :: rest, position⟩
  | .line, [], position => ⟨[], position⟩
  | .line, c :: rest, position =>
    if c = '\n' then GapState.outside.skip rest (position.after c)
    else GapState.line.skip rest (position.after c)
  | .block opened, [], _ => opened
  | .block _, '*' :: '/' :: rest, position =>
    GapState.outside.skip rest ((position.after '*').after '/')
  | .block opened, c :: rest, position => (GapState.block opened).skip rest (position.after c)

/-- The cursor after the gap that starts here. -/
def Cursor.skipGap (cursor : Cursor) : Cursor := GapState.outside.skip cursor.rest cursor.position

end Kestrel
