/-!
# Positions in a source text

Offsets count UTF-8 bytes and lines count from one. A cursor is a position together with the
characters that follow it, so that a step over one character keeps offset and line right.
-/

namespace Kestrel

/-- A place in a source text: its byte offset and its line. -/
structure Position where
  offset : Nat
  line : Nat
  deriving DecidableEq, Repr, Inhabited

/-- The first place of every source text. -/
def Position.origin : Position := ⟨0, 1⟩

/-- The place right after one character: a line feed opens the next line. -/
def Position.after (position : Position) (c : Char) : Position :=
  ⟨position.offset + c.utf8Size, if c = '\n' then position.line + 1 else position.line⟩

/-- A stretch of source text, with the line on which it starts. -/
structure Span where
  start : Nat
  stop : Nat
  line : Nat
  deriving DecidableEq, Repr, Inhabited

namespace Span

/-- The stretch between two places, on the line of the first. -/
def between (start stop : Position) : Span :=
  ⟨start.offset, stop.offset, start.line⟩

/-- The stretch from the start of `first` to the end of `last`, on the line of `first`. -/
def join (first last : Span) : Span :=
  ⟨first.start, last.stop, first.line⟩

/-- The number of bytes covered. -/
def length (span : Span) : Nat := span.stop - span.start

/-- A span that covers no byte. -/
def isEmpty (span : Span) : Bool := span.length == 0

end Span

/-- A reading position: what is still to be read, and where that starts. -/
structure Cursor where
  rest : List Char
  position : Position
  deriving DecidableEq, Repr, Inhabited

namespace Cursor

/-- The cursor before the first character of a text. -/
def ofText (text : String) : Cursor := ⟨text.toList, .origin⟩

/-- Steps over one character, if there is one and it passes the test. -/
def take? (cursor : Cursor) (test : Char → Bool) : Option Cursor :=
  match cursor.rest with
  | [] => none
  | c :: rest => if test c then some ⟨rest, cursor.position.after c⟩ else none

/-- Steps over a given word, if it comes next. -/
def word? (cursor : Cursor) : List Char → Option Cursor
  | [] => some cursor
  | c :: word =>
    match cursor.take? (· == c) with
    | none => none
    | some next => next.word? word

/-- The characters that cover `bytes` bytes at the front of a list. -/
def front : List Char → Nat → List Char
  | [], _ => []
  | c :: rest, bytes => if bytes = 0 then [] else c :: front rest (bytes - c.utf8Size)

/-- The text between a cursor and a later one of the same source. -/
def textTo (cursor later : Cursor) : String :=
  String.ofList (front cursor.rest (later.position.offset - cursor.position.offset))

end Cursor

end Kestrel
