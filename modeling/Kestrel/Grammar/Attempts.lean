import Kestrel.Grammar.Rule
import Kestrel.Source.Cursor

/-!
# What was tried

While a text is matched, the rules that failed at the furthest place reached are kept: they are
the alternatives that a syntax error names. A rule stands for what was tried inside it, unless
exactly one attempt was made there, which says more than the rule itself.
-/

namespace Kestrel

/-- The rules that failed at the furthest place at which one failed. -/
structure Attempts where
  furthest : Position
  rules : List Rule
  deriving DecidableEq, Repr, Inhabited

namespace Attempts

/-- Nothing has been tried. -/
def none : Attempts := ⟨.origin, []⟩

/-- The number of attempts kept for one place. -/
def count (attempts : Attempts) (position : Position) : Nat :=
  if attempts.furthest.offset = position.offset then attempts.rules.length else 0

/-- Adds the failure of `rule` at `position`, where `before` was known when the rule was entered
and `after` when it failed. -/
def record (before after : Attempts) (rule : Rule) (position : Position) : Attempts :=
  if after.count position = before.count position + 1 then after
  else if after.furthest.offset = position.offset then
    ⟨after.furthest, after.rules.take (before.count position) ++ [rule]⟩
  else if after.furthest.offset < position.offset then ⟨position, [rule]⟩
  else after

/-- The alternatives in the order of the grammar, each once. -/
def alternatives (attempts : Attempts) : List Rule :=
  (attempts.rules.mergeSort fun a b => a.rank ≤ b.rank).eraseDups

end Attempts

end Kestrel
