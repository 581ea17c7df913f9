import Kestrel.Fault.Cause

/-!
# The call stack

The calls that are being executed. Their number is bounded, and an error takes a copy of them
along.
-/

namespace Kestrel

/-- A call of a function from some line of a module. -/
structure Frame where
  function : String
  module : String
  line : Nat
  deriving DecidableEq, Repr, Inhabited

/-- A frame in a backtrace. -/
def Frame.text (frame : Frame) : String :=
  frame.function ++ " (called at " ++ frame.module ++ ":" ++ toString frame.line ++ ")"

/-- The active calls, innermost first, and how many there may be. -/
structure CallStack where
  frames : List Frame
  /-- The number of active calls. -/
  depth : Nat
  maxDepth : Nat
  depth_eq : depth = frames.length
  depth_le : depth ≤ maxDepth
  deriving DecidableEq, Repr

namespace CallStack

/-- The bound on active calls unless another one is asked for. -/
def defaultMaxDepth : Nat := 1000

/-- No active calls. -/
def empty (maxDepth : Nat) : CallStack := ⟨[], 0, maxDepth, rfl, Nat.zero_le _⟩

instance : Inhabited CallStack := ⟨empty defaultMaxDepth⟩

/-- Enters a call, unless there are as many as allowed. -/
def push (stack : CallStack) (frame : Frame) : Except Cause CallStack :=
  if h : stack.maxDepth ≤ stack.depth then .error (.depthExceeded stack.maxDepth)
  else
    .ok ⟨frame :: stack.frames, stack.depth + 1, stack.maxDepth, by simp [stack.depth_eq],
      by omega⟩

/-- Leaves the innermost call. -/
def pop (stack : CallStack) : CallStack :=
  ⟨stack.frames.tail, stack.depth - 1, stack.maxDepth, by simp [stack.depth_eq],
    by have := stack.depth_le; omega⟩

/-- The innermost call. -/
def current? (stack : CallStack) : Option Frame := stack.frames.head?

end CallStack

end Kestrel
