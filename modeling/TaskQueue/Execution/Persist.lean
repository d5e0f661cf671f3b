import TaskQueue.Execution.Backoff
import TaskQueue.Notice
import TaskQueue.Task.Result

/-!
# Writing a result until it is stored

The last patch of a run is written again and again until the store takes it, the task turns out to
be gone, or the status is refused.  The first two failures are reported; a later one is reported if
the last report is old enough, together with the number of failures passed over since.
-/

namespace TaskQueue.Execution

def reportedFailures : Nat := 2

/-- What the number of attempts has to stay below. -/
def attemptBound : Nat := 2 ^ (32 : Nat)

/-- The attempts made so far; times are in nanoseconds.  The counts are exact as long as they are
below `attemptBound`. -/
structure Attempts where
  count : Nat
  lastReport : Option Nat
  suppressed : Nat
  deriving DecidableEq, Repr, Inhabited

inductive Persisted where
  | applied (attempts : Nat)
  | gone (attempts : Nat)
  | rejected (attempts : Nat)
  deriving DecidableEq, Repr, Inhabited

def Persisted.attempts : Persisted → Nat
  | .applied n => n
  | .gone n => n
  | .rejected n => n

inductive Persisting where
  | ended (p : Persisted)
  | again (delay : Time.Duration) (a : Attempts)
  deriving DecidableEq, Repr

namespace Attempts

def none : Attempts :=
  ⟨0, .none, 0⟩

/-- Whether a failure is passed over: it is not among the first, and the last report is younger
than the log interval. -/
def isThrottled (a : Attempts) (p : RetryPolicy) (now : Nat) : Bool :=
  reportedFailures < a.count ∧ a.lastReport.any fun at_ => now - at_ < p.logInterval.total

def after (a : Attempts) (p : RetryPolicy) (now : Nat) (id : TaskId) (status : Status)
    (answer : Except StoreError Unit) : Persisting × List Notice :=
  let a := { a with count := a.count + 1 }
  match answer with
  | .ok () => (.ended (.applied a.count), [])
  | .error (.taskNotFound _) => (.ended (.gone a.count), [])
  | .error (.invalidStatus s) => (.ended (.rejected a.count), [.persistRefused id s])
  | .error e =>
    let delay := p.delay (a.count - 1)
    if a.isThrottled p now then (.again delay { a with suppressed := a.suppressed + 1 }, [])
    else
      (.again delay { a with lastReport := some now, suppressed := 0 },
        [.persistFailed id status a.count (delay.millis % 2 ^ (64 : Nat)) a.suppressed e])

end Attempts

end TaskQueue.Execution
