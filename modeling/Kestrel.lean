import Kestrel.Main
import Kestrel.Module.FileTree
import Kestrel.Proofs.Eval.Plain
import Kestrel.Proofs.Eval.Visit
import Kestrel.Proofs.Eval.Call
import Kestrel.Proofs.Eval.Attempt
import Kestrel.Proofs.Eval.Composed
import Kestrel.Proofs.Eval.CallBalance
import Kestrel.Proofs.Eval.ErrorOrigin
import Kestrel.Proofs.Eval.LoopExit
import Kestrel.Proofs.Eval.Unwinding
import Kestrel.Proofs.Store
import Kestrel.Proofs.Eval.Finally
import Kestrel.Proofs.Module.PathText
import Kestrel.Proofs.Module.Place
import Kestrel.Proofs.Mention
import Kestrel.Proofs.Module.Graph
import Kestrel.Proofs.Discipline.Basic
import Kestrel.Proofs.Discipline.Native
import Kestrel.Proofs.Discipline.Visit
import Kestrel.Proofs.Discipline.Expression
import Kestrel.Proofs.Discipline.Statement
import Kestrel.Proofs.Discipline.Names
import Kestrel.Proofs.Discipline.Realm
import Kestrel.Proofs.Module.Separation
import Kestrel.Proofs.Module.Nesting
import Kestrel.Proofs.Native.Editing
import Kestrel.Proofs.Native.Failure
import Kestrel.Proofs.Eval.DepthLimit
import Kestrel.Proofs.Discipline.Shape
import Kestrel.Proofs.Object
import Kestrel.Proofs.Grammar.Reading
import Kestrel.Proofs.Syntax.Node
import Kestrel.Proofs.Syntax.Precedence
import Kestrel.Proofs.Syntax.Part
import Kestrel.Proofs.Syntax.Assembly
import Kestrel.Proofs.Syntax.Spans
import Kestrel.Proofs.Module.Acyclic
import Kestrel.Proofs.Grammar.Spelling
import Kestrel.Proofs.Syntax.Grouping
import Kestrel.Proofs.Syntax.Settled
import Kestrel.Proofs.Syntax.Faults
import Kestrel.Proofs.Source.Comment
import Kestrel.Proofs.Grammar.Blanking
import Kestrel.Proofs.Syntax.Comment
import Kestrel.Proofs.Interactive.Brackets
import Kestrel.Proofs.Interactive.Waiting
import Kestrel.Proofs.Syntax.Chains
import Kestrel.Proofs.Number.Equality
import Kestrel.Proofs.Value.Opened
import Kestrel.Proofs.Value.Equality
import Kestrel.Proofs.Value.Rendering
import Kestrel.Proofs.Number.Text
import Kestrel.Proofs.Dictionary.History
import Kestrel.Proofs.Dictionary.Answers
import Kestrel.Proofs.Number.Index
import Kestrel.Proofs.Value.Growth
import Kestrel.Proofs.Slot
import Kestrel.Proofs.Eval.Assignment
import Kestrel.Proofs.Eval.Logic
import Kestrel.Proofs.Interactive.Shortcut
import Kestrel.Proofs.Grammar.Verdict
import Kestrel.Proofs.Grammar.Termination
import Kestrel.Proofs.Grammar.Word
import Kestrel.Proofs.Grammar.Statement
import Kestrel.Proofs.Syntax.Entry
import Kestrel.Proofs.Number.Literal
import Kestrel.Proofs.Grammar.Identifier
import Kestrel.Proofs.Grammar.Opening
import Kestrel.Proofs.Grammar.Path
import Kestrel.Proofs.Grammar.Moved
import Kestrel.Proofs.Grammar.Furthest
import Kestrel.Proofs.Syntax.Operand
import Kestrel.Proofs.Syntax.Guard
import Kestrel.Proofs.Syntax.Condition
import Kestrel.Proofs.Syntax.Escape
import Kestrel.Proofs.Syntax.Preorder
import Kestrel.Proofs.Syntax.Refusal
import Kestrel.Proofs.Syntax.Promise
import Kestrel.Proofs.Syntax.Runnable
import Kestrel.Proofs.Eval.Ordinary
import Kestrel.Proofs.Eval.Tame
import Kestrel.Proofs.Eval.Code
import Kestrel.Proofs.Eval.Accepted
import Kestrel.Proofs.Scope.Tree
import Kestrel.Proofs.Scope.Answers
import Kestrel.Proofs.Module.Canonical
import Kestrel.Proofs.Module.EntryKey
import Kestrel.Proofs.Number.Shortest
import Kestrel.Proofs.Number.Plain
import Kestrel.Proofs.Text.Quoted
import Kestrel.Proofs.Syntax.Induction
import Kestrel.Proofs.Syntax.Bare
import Kestrel.Proofs.Syntax.Alike
import Kestrel.Proofs.Syntax.Rendering
import Kestrel.Proofs.Syntax.Proper
import Kestrel.Proofs.Syntax.Reader
import Kestrel.Proofs.Syntax.Readback
import Kestrel.Proofs.Syntax.Faithful
import Kestrel.Proofs.Eval.Steps
import Kestrel.Proofs.Eval.Iteration
import Kestrel.Proofs.Eval.Growing
import Kestrel.Proofs.Native.Receiver
import Kestrel.Proofs.Number.Truncation
import Kestrel.Proofs.Native.Slice
import Kestrel.Proofs.Number.Unpacked
import Kestrel.Proofs.Number.Exact
import Kestrel.Proofs.Number.Count
import Kestrel.Proofs.Text.Search
import Kestrel.Proofs.Native.Search
import Kestrel.Proofs.Text.Split
import Kestrel.Proofs.Native.Split
import Kestrel.Proofs.Grammar.Gap
import Kestrel.Proofs.Grammar.Nesting
import Kestrel.Proofs.Grammar.Depth
