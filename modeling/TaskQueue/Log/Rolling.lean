import TaskQueue.Log.Snapshot

/-!
# Rolling logs

The buffer of a producer: lines come in one by one, and the oldest ones leave when there are more
than the window holds.
-/

namespace TaskQueue.Log

structure Rolling where
  lines : List String
  seq : Nat
  window : Nat
  deriving DecidableEq, Repr, Inhabited

namespace Rolling

/-- The empty buffer; a window of zero counts as one line. -/
def empty (window : Nat) : Rolling :=
  ⟨[], 0, clampWindow window⟩

def evict (window : Nat) : List String → List String
  | [] => []
  | line :: rest => if window < rest.length + 1 then evict window rest else line :: rest

def push (log : Rolling) (line : String) : Rolling :=
  { log with lines := evict log.window (log.lines ++ [line]), seq := log.seq + 1 }

def extend (log : Rolling) (lines : List String) : Rolling :=
  lines.foldl push log

def snapshot (log : Rolling) : Snapshot :=
  ⟨log.lines, log.seq⟩

end Rolling

end TaskQueue.Log
