import TaskQueue.Cli.Report
import TaskQueue.Log.Delta

/-!
# Watching a log

A log is printed from some line on.  Whoever follows it asks again after a while, and stops when the
task is gone or its run has ended: the status is read before the log, and a run ends in one step
with its last lines.
-/

namespace TaskQueue.Cli

open Store (Backend Moment)
open Log (Snapshot)

/-- How long a follower waits between two looks at the log, in milliseconds. -/
def followInterval : Nat := 1000

/-- Printed where lines are missing between what was printed and what follows. -/
def resyncMarker : String := "--- log window moved, showing retained lines ---"

/-- The lines to print for a snapshot when the first `seen` lines are known, and the number of
lines known then. -/
def render? (seen : Nat) (s : Snapshot) : Option (List String × Nat) :=
  (Log.reconcile? seen s).map fun
    | .noop => ([], seen)
    | .append lines next => (lines, next)
    | .resync lines next =>
      (if 0 < seen ∨ lines ≠ [] then resyncMarker :: lines else lines, next)

inductive Look where
  | more (lines : List String) (seen : Nat)
  | ended (r : Report)
  deriving DecidableEq, Repr

def lookAt (b : Backend) (moment : Moment) (id : TaskId) (seen : Nat) (gone : Report) :
    Look × Backend :=
  let s := b.perform moment (.snapshot id)
  let look :=
    match s.result with
    | .error (.error e) => .ended (.fail (.refused .readLogs e))
    | .error (.crash _) => .ended ⟨[], .crashed⟩
    | .ok none => .ended gone
    | .ok (some snapshot) =>
      match render? seen snapshot with
      | none => .ended ⟨[], .crashed⟩
      | some (lines, seen) => .more lines seen
  (look, s.store)

def firstLook (b : Backend) (moment : Moment) (id : TaskId) (since : Nat) : Look × Backend :=
  lookAt b moment id since (.fail (.missing id))

/-- Printed when a follower stops because the task is gone. -/
def deletedMarker : String := "--- task deleted ---"

/-- Printed when a follower stops because the run has ended. -/
def endMarker (status : Status) : String :=
  s!"--- task {status.name} ---"

/-- Reads the status of the task before another look at its log. -/
def readStatus (b : Backend) (moment : Moment) (id : TaskId) : Except Report Status × Backend :=
  let s := b.perform moment (.control id)
  let status :=
    match s.result with
    | .error (.error e) => .error (.fail (.refused .readState e))
    | .error (.crash _) => .error ⟨[], .crashed⟩
    | .ok none => .error (.done [deletedMarker])
    | .ok (some state) => .ok state.status
  (status, s.store)

/-- Another look at the log, the last one if the run had ended before it. -/
def lookAfter (status : Status) (b : Backend) (moment : Moment) (id : TaskId) (seen : Nat) :
    Look × Backend :=
  match lookAt b moment id seen (.done [deletedMarker]) with
  | (.more lines seen, b) =>
    if status.isTerminal then (.ended (.done (lines ++ [endMarker status])), b)
    else (.more lines seen, b)
  | r => r

def nextLook (b : Backend) (moment : Moment) (id : TaskId) (seen : Nat) : Look × Backend :=
  match readStatus b moment id with
  | (.error r, b) => (.ended r, b)
  | (.ok status, b) => lookAfter status b moment id seen

/-- Goes on looking, at most `fuel` times, while the world changes between two looks; none if the
log does not end in this time. -/
def followLoop (look : σ → Nat → Look × σ) (pass : Nat → σ → σ) :
    Nat → Nat → σ → Nat → Option Report × σ
  | 0, _, world, _ => (none, world)
  | fuel + 1, count, world, seen =>
    match look (pass count world) seen with
    | (.ended r, world) => (some r, world)
    | (.more lines seen, world) =>
      let (r, world) := followLoop look pass fuel (count + 1) world seen
      (r.map (·.after lines), world)

end TaskQueue.Cli
