import TaskQueue.Time.Duration

/-!
# Waiting between attempts

After a failed write the next attempt waits: a base delay that doubles with every failure, six times
at most, and never exceeds a longest delay.
-/

namespace TaskQueue.Execution

open Time (Duration)

structure RetryPolicy where
  baseDelay : Duration
  maxDelay : Duration
  logInterval : Duration
  deriving DecidableEq, Repr, Inhabited

def maxDoublings : Nat := 6

namespace RetryPolicy

def standard : RetryPolicy :=
  ⟨.ofMillis 500, .ofSeconds 30, .ofSeconds 30⟩

/-- The delay after a failure; failures are counted from zero. -/
def delay (p : RetryPolicy) (failure : Nat) : Duration :=
  ((p.baseDelay.times? (2 ^ min failure maxDoublings)).getD p.maxDelay).shortest p.maxDelay

end RetryPolicy

end TaskQueue.Execution
