import Kestrel.Syntax.Assembly

/-!
# Parsing

A source text is read by the grammar as a whole; then its tree is assembled. A text that does not
follow the grammar is refused with what was expected at the furthest place reached.
-/

namespace Kestrel

/-- The part that a whole source text forms under a rule. -/
def readPart (rule : Rule) (source : String) : Except SyntaxFault Part :=
  match rule.readText source with
  | .matched _ (node :: _) _ => .ok node.part
  | .matched _ [] _ => .error (.unexpectedRule ⟨0, 0, 1⟩ rule.description "end of rule")
  | .failed attempts => .error (.expected attempts.furthest attempts.alternatives)
  | .exhausted => .error (.expected .origin [])

/-- Parses a program; `sourceFile` is the file it came from, if any. -/
def parseProgram (source : String) (sourceFile : Option String) : Except SyntaxError Program :=
  let outcome : Except SyntaxFault Program := do
    let part ← readPart .program source
    match ← part.meaning with
    | .program program => return { program with sourceFile }
    | _ => part.misplaced .program
  outcome.mapError (⟨source, ·⟩)

/-- Parses a single expression. -/
def parseExpression (source : String) : Except SyntaxError Expression :=
  let outcome : Except SyntaxFault Expression := do
    (← readPart .singleExpression source).expression
  outcome.mapError (⟨source, ·⟩)

end Kestrel
