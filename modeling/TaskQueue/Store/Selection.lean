import TaskQueue.Task.Basic

/-!
# The oldest tasks

`oldest` looks at tasks one after the other, in whatever order they come, and keeps the oldest ones
that it has seen, never more than asked for.
-/

namespace TaskQueue.Store

def insertByAge (t : Task) : List Task → List Task
  | [] => [t]
  | u :: rest => if u.before t then u :: insertByAge t rest else t :: u :: rest

/-- Takes in one more task, and lets the youngest go if there are too many. -/
def keepOldest (limit : Nat) (kept : List Task) (t : Task) : List Task :=
  let next := insertByAge t kept
  if limit < next.length then next.dropLast else next

/-- The oldest tasks that the filter admits, oldest first. -/
def oldest (tasks : List Task) (filter : TaskFilter) (limit : Nat) : List Task :=
  (tasks.filter filter.matches).foldl (keepOldest limit) []

end TaskQueue.Store
