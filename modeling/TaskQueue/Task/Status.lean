/-!
# The status of a task

A task waits in the queue, is being processed, or has ended: it succeeded, failed or was paused.
-/

namespace TaskQueue

inductive Status where
  | queued
  | processing
  | succeeded
  | failed
  | paused
  deriving DecidableEq, Repr, Inhabited

namespace Status

def name : Status → String
  | .queued => "queued"
  | .processing => "processing"
  | .succeeded => "succeeded"
  | .failed => "failed"
  | .paused => "paused"

def ofName? (s : String) : Option Status :=
  if s = "queued" then some .queued
  else if s = "processing" then some .processing
  else if s = "succeeded" then some .succeeded
  else if s = "failed" then some .failed
  else if s = "paused" then some .paused
  else none

def isTerminal : Status → Bool
  | .succeeded | .failed | .paused => true
  | .queued | .processing => false

/-- Whether the task may be paused. -/
def isPausable : Status → Bool
  | .queued | .processing => true
  | .succeeded | .failed | .paused => false

/-- Whether the task may be put back into the queue. -/
def isRetryable : Status → Bool
  | .failed | .paused => true
  | .queued | .processing | .succeeded => false

theorem ofName?_name (s : Status) : ofName? s.name = some s := by
  cases s <;> decide

end Status

end TaskQueue
