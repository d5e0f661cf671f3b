import TaskQueue.Log.Delta

/-!
# The view of an observer

An observer keeps the lines it was told of and the number of the newest one.
-/

namespace TaskQueue.Log

structure View where
  lines : List String
  seen : Nat
  deriving DecidableEq, Repr, Inhabited

namespace View

def empty : View :=
  ⟨[], 0⟩

def apply (v : View) : Delta → View
  | .noop => v
  | .append lines seen => ⟨v.lines ++ lines, seen⟩
  | .resync lines seen => ⟨lines, seen⟩

/-- Brings the view up to date with a snapshot, and tells what this took. -/
def update? (v : View) (s : Snapshot) : Option (Delta × View) :=
  (reconcile? v.seen s).map fun delta => (delta, v.apply delta)

end View

end TaskQueue.Log
