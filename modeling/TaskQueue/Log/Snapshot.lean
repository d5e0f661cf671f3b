import TaskQueue.Power

/-!
# Log snapshots

A log keeps its newest lines and counts all lines ever written.  A snapshot shows both; its counter
stays below `counterBound`, and an operation that would take it there has no result.
-/

namespace TaskQueue.Log

def counterBound : Nat := 2 ^ (64 : Nat)

structure Snapshot where
  lines : List String
  /-- The number of lines ever written, which is the number of the newest line. -/
  seq : Nat
  deriving DecidableEq, Repr, Inhabited

/-- The last `window` lines. -/
def newest (window : Nat) (lines : List String) : List String :=
  lines.drop (lines.length - window)

def clampWindow (window : Nat) : Nat :=
  max window 1

namespace Snapshot

def empty : Snapshot :=
  ⟨[], 0⟩

def isConsistent (s : Snapshot) : Bool :=
  s.lines.length ≤ s.seq

/-- Whether the log stands at its beginning. -/
def isReset (s : Snapshot) : Bool :=
  s.seq = 0 ∧ s.lines.isEmpty

/-- The number of the oldest line shown, one more than `seq` if none is. -/
def oldest? (s : Snapshot) : Option Nat :=
  if s.seq + 1 < counterBound then some (s.seq + 1 - s.lines.length) else none

/-- Appends lines and drops the oldest ones beyond the window. -/
def push? (s : Snapshot) (lines : List String) (window : Nat) : Option Snapshot :=
  if lines = [] ∨ s.seq + lines.length < counterBound then
    some ⟨newest (clampWindow window) (s.lines ++ lines), s.seq + lines.length⟩
  else none

end Snapshot

end TaskQueue.Log
