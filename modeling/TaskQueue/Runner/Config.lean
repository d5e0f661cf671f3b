import TaskQueue.Execution.Backoff
import TaskQueue.Log.Snapshot

/-!
# The settings of a runner
-/

namespace TaskQueue

open Time (Duration)

namespace Runner

structure Config where
  scanLimit : Nat
  pollInterval : Duration
  retry : Execution.RetryPolicy
  logWindow : Nat
  name : Option String
  deriving DecidableEq, Repr, Inhabited

inductive Flaw where
  | emptyDatabaseUrl
  | zeroScanLimit
  | zeroLogWindow
  | zeroInterval (name : String)
  deriving DecidableEq, Repr, Inhabited

def Flaw.message : Flaw → String
  | .emptyDatabaseUrl => "Database URL must not be empty"
  | .zeroScanLimit => "Scan limit must be greater than zero"
  | .zeroLogWindow => "Log window must be greater than zero"
  | .zeroInterval name => s!"Interval '{name}' must be greater than zero"

namespace Config

def standard : Config :=
  ⟨50, .ofSeconds 2, .standard, 500, none⟩

def flaw? (c : Config) : Option Flaw :=
  if c.scanLimit = 0 then some .zeroScanLimit
  else if c.logWindow = 0 then some .zeroLogWindow
  else if c.pollInterval.isZero then some (.zeroInterval "control_poll_interval")
  else if c.retry.baseDelay.isZero then some (.zeroInterval "finalize_base_delay")
  else if c.retry.maxDelay.isZero then some (.zeroInterval "finalize_max_delay")
  else none

end Config

end Runner

end TaskQueue
