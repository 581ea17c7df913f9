import Kestrel.Grammar.Attempts
import Kestrel.Grammar.Definition
import Kestrel.Grammar.Gap

/-!
# Reading a text by the grammar

A pattern is read at a cursor and either matches, with the cursor after what it took and the
nodes of the rules inside it, or fails. Rules may contain each other, so reading a rule takes a
depth, which every rule entered uses up by one; `Rule.readText` gives enough of it for a text.
-/

namespace Kestrel

/-- One rule that matched: what it covers and the rules inside it. Tokens also keep their text. -/
structure Node where
  rule : Rule
  start : Position
  stop : Position
  text : String
  children : List Node
  deriving Repr, Inhabited

namespace Node

/-- The source covered by a node. -/
def span (node : Node) : Span := .between node.start node.stop

end Node

/-- What reading a pattern gives. -/
inductive Reply where
  /-- The pattern matched up to `next`. -/
  | matched (next : Cursor) (nodes : List Node) (attempts : Attempts)
  /-- The pattern does not match here. -/
  | failed (attempts : Attempts)
  /-- The depth did not suffice to decide. -/
  | exhausted
  deriving Repr, Inhabited

/-- Reads one rule. -/
abbrev RuleReader := Rule → Mode → Cursor → Attempts → Reply

namespace Pattern

/-- Reads `step` as often as it matches; `nodes` holds the nodes read so far, last first. -/
def readMany (step : Cursor → Attempts → Reply) :
    Nat → Cursor → Attempts → List Node → Reply
  | 0, _, _, _ => .exhausted
  | limit + 1, cursor, attempts, nodes =>
    match step cursor attempts with
    | .matched next more attempts => readMany step limit next attempts (more.reverseAux nodes)
    | .failed attempts => .matched cursor nodes.reverse attempts
    | .exhausted => .exhausted

/-- Steps over the gap between two parts, where the mode allows one. -/
def between (mode : Mode) (cursor : Cursor) : Cursor :=
  match mode with
  | .spaced => cursor.skipGap
  | .tight | .token => cursor

/-- Reads a pattern, with `call` for the rules in it and at most `limit` rounds of a repetition. -/
def read (call : RuleReader) (limit : Nat) (mode : Mode) :
    Pattern → Cursor → Attempts → Reply
  | .start, cursor, attempts =>
    if cursor.position.offset = 0 then .matched cursor [] attempts else .failed attempts
  | .finish, cursor, attempts =>
    if cursor.rest.isEmpty then .matched cursor [] attempts else .failed attempts
  | .word letters, cursor, attempts =>
    match cursor.word? letters with
    | some next => .matched next [] attempts
    | none => .failed attempts
  | .range low high, cursor, attempts =>
    match cursor.take? fun c => low ≤ c && c ≤ high with
    | some next => .matched next [] attempts
    | none => .failed attempts
  | .anything, cursor, attempts =>
    match cursor.take? fun _ => true with
    | some next => .matched next [] attempts
    | none => .failed attempts
  | .rule name, cursor, attempts => call name mode cursor attempts
  | .seq first second, cursor, attempts =>
    match first.read call limit mode cursor attempts with
    | .matched next nodes attempts =>
      match second.read call limit mode (between mode next) attempts with
      | .matched last more attempts => .matched last (nodes ++ more) attempts
      | reply => reply
    | reply => reply
  | .alt first second, cursor, attempts =>
    match first.read call limit mode cursor attempts with
    | .failed attempts => second.read call limit mode cursor attempts
    | reply => reply
  | .opt body, cursor, attempts =>
    match body.read call limit mode cursor attempts with
    | .failed attempts => .matched cursor [] attempts
    | reply => reply
  | .many body, cursor, attempts =>
    match body.read call limit mode cursor attempts with
    | .matched next nodes attempts =>
      readMany (fun cursor => body.read call limit mode (between mode cursor)) limit next attempts
        nodes.reverse
    | .failed attempts => .matched cursor [] attempts
    | .exhausted => .exhausted
  | .absent body, cursor, attempts =>
    match body.read call limit .token cursor attempts with
    | .matched _ _ _ => .failed attempts
    | .failed _ => .matched cursor [] attempts
    | .exhausted => .exhausted

end Pattern

/-- The mode in which a rule's inside is read: nothing inside a token is more than a token. -/
def Mode.inside (outer inner : Mode) : Mode :=
  match outer with
  | .token => .token
  | .spaced | .tight => inner

namespace Rule

/-- Reads a rule, entering at most `depth` rules inside each other. -/
def read : Nat → RuleReader
  | 0, _, _, _, _ => .exhausted
  | depth + 1, rule, mode, cursor, attempts =>
    let inner := mode.inside rule.definition.mode
    match mode, rule.definition.body.read (read depth) depth inner cursor attempts with
    | .token, reply => reply
    | _, .matched next children attempts =>
      let text := match inner with
        | .token => cursor.textTo next
        | .spaced | .tight => ""
      .matched next [⟨rule, cursor.position, next.position, text, children⟩] attempts
    | _, .failed after => .failed (attempts.record after rule cursor.position)
    | _, .exhausted => .exhausted

/-- How many rules can be open at one place of the text; a longer chain would come back to a rule
without having read anything. -/
def depthPerCharacter : Nat := 100

/-- Reads a whole text by a rule. -/
def readText (rule : Rule) (text : String) : Reply :=
  rule.read (depthPerCharacter * (text.length + 2)) .spaced (.ofText text) .none

end Rule

end Kestrel
