import TaskQueue.Task.Result

/-!
# Outcomes of executions

An execution ends with an output or a failure.  Either one becomes the last patch of the run.
-/

namespace TaskQueue.Execution

structure Output where
  logs : List String
  seq : Nat
  output : String
  providerRef : Option String
  extra : Json.Object
  deriving DecidableEq, Repr

structure Failure where
  message : String
  logs : Option (List String)
  seq : Option Nat
  output : Option String
  providerRef : Option String
  extra : Json.Object
  /-- Whether the execution stopped because it was told to. -/
  aborted : Bool
  deriving DecidableEq, Repr

namespace Output

def ofLogs (logs : List String) : Output :=
  ⟨logs, logs.length, "", none, .empty⟩

def patch (o : Output) : ResultPatch where
  logs := some o.logs
  seq := some o.seq
  output := some o.output
  providerRef := o.providerRef
  message := .clear
  extra := o.extra

end Output

namespace Failure

/-- The failure about which nothing but a message is known. -/
def ofMessage (message : String) : Failure :=
  ⟨message, none, none, none, none, .empty, false⟩

/-- The number of log lines; lines that are reported count at least once. -/
def countedSeq (f : Failure) : Option Nat :=
  match f.logs with
  | some logs => some (max (f.seq.getD 0) logs.length)
  | none => f.seq

/-- The patch of a run that failed, with the given message. -/
def patch (f : Failure) (message : String) : ResultPatch where
  logs := f.logs
  seq := f.countedSeq
  output := f.output
  providerRef := f.providerRef
  message := .set message
  extra := f.extra

end Failure

inductive Verdict where
  | success (o : Output)
  | failure (f : Failure)
  deriving DecidableEq, Repr

namespace Verdict

def providerRef : Verdict → Option String
  | .success o => o.providerRef
  | .failure f => f.providerRef

end Verdict

end TaskQueue.Execution
