import TaskQueue.Execution.Outcome
import TaskQueue.Log.Rolling
import TaskQueue.Shell.Process

/-!
# From the output of a command to the end of a run

The lines of a running command come in batches.  Each batch goes into the buffer of the run and is
offered to the store, which may fail to take it.  When the command ends, the buffer becomes the log
of the verdict.
-/

namespace TaskQueue.Shell

open Execution (Failure Output Verdict)
open Log (Rolling)

inductive CommandEnd where
  | ended (e : ProcessEnd)
  | cancelled
  deriving DecidableEq, Repr, Inhabited

def maxBatch : Nat := 64

def collect (window : Nat) (batches : List (List String)) : Rolling :=
  batches.foldl Rolling.extend (.empty window)

/-- What is stored beside a result: the exit code, null after a signal. -/
def exitExtra (e : ProcessEnd) : Json.Object :=
  .ofFields [("exitCode", (e.code?.map fun code => Json.nat code.toNat).getD .null)]

def failureWith (log : Rolling) (message : String) (extra : Json.Object) (aborted : Bool) :
    Failure :=
  ⟨message, some log.lines, some log.seq, none, none, extra, aborted⟩

/-- The verdict on a command that ended, with the lines of the buffer. -/
def verdictOf (log : Rolling) : CommandEnd → Verdict
  | .cancelled => .failure (failureWith log "Command cancelled" .empty true)
  | .ended e =>
    if e.isSuccess then .success ⟨log.lines, log.seq, "", none, exitExtra e⟩
    else .failure (failureWith log s!"Command exited with {e.description}" (exitExtra e) false)

/-- Offers batches to a store and gives the verdict at the end. -/
def stream (offer : List String → σ → σ) (window : Nat) (batches : List (List String))
    (e : CommandEnd) (store : σ) : Verdict × σ :=
  (verdictOf (collect window batches) e, batches.foldl (fun s batch => offer batch s) store)

end TaskQueue.Shell
