import Kestrel.Grammar.Rule

/-!
# Patterns

A grammar in the style of parsing expressions: choices are ordered, and a repetition takes as
much as it can and is never reconsidered. Patterns are data, so that facts about the grammar can
be read off them.
-/

namespace Kestrel

/-- What a rule may consist of. -/
inductive Pattern where
  /-- The start of the text. -/
  | start
  /-- The end of the text. -/
  | finish
  /-- A fixed word. -/
  | word (letters : List Char)
  /-- One character between two bounds. -/
  | range (low high : Char)
  /-- One character of any kind. -/
  | anything
  /-- A named rule. -/
  | rule (name : Rule)
  /-- One pattern after another. -/
  | seq (first second : Pattern)
  /-- The first pattern, or else the second. -/
  | alt (first second : Pattern)
  /-- A pattern, or nothing. -/
  | opt (body : Pattern)
  /-- A pattern as often as it matches. -/
  | many (body : Pattern)
  /-- Nothing, provided that the pattern does not match here. -/
  | absent (body : Pattern)
  deriving DecidableEq, Repr, Inhabited

namespace Pattern

/-- Several patterns in a row. -/
def inOrder : List Pattern → Pattern
  | [] => .word []
  | [only] => only
  | first :: second :: others => .seq first (inOrder (second :: others))

/-- The first of several patterns that matches; no alternatives match nothing. -/
def oneOf : List Pattern → Pattern
  | [] => .absent (.word [])
  | [only] => only
  | first :: second :: others => .alt first (oneOf (second :: others))

/-- A fixed word, given as text. -/
def text (letters : String) : Pattern := .word letters.toList

/-- A pattern at least once. -/
def oneOrMore (body : Pattern) : Pattern := .seq body (.many body)

/-- A list of items with commas between them and an optional comma at the end. -/
def commaList (item : Pattern) : Pattern :=
  inOrder [item, .many (.seq (text ",") item), .opt (text ",")]

end Pattern

/-- How the inside of a rule is read. -/
inductive Mode where
  /-- Blanks and comments may stand between the parts. -/
  | spaced
  /-- The parts follow each other directly. -/
  | tight
  /-- The parts follow each other directly and form one token: inner rules leave no trace. -/
  | token
  deriving DecidableEq, Repr, Inhabited

/-- The right-hand side of a rule. -/
structure Definition where
  mode : Mode
  body : Pattern
  deriving DecidableEq, Repr

end Kestrel
