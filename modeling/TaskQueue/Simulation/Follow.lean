import TaskQueue.Simulation.Site

/-!
# Following a log while the store changes

Changes come at their times, in milliseconds since the follower started.
-/

namespace TaskQueue.Simulation

structure Change where
  time : Nat
  operations : List Operation

/-- The milliseconds of a day, after which nobody follows any longer. -/
def dayMs : Nat := 86400000

def applyChanges (now : Nat) : Site × List Change → Site × List Change
  | (s, changes) =>
    let due := changes.takeWhile fun c => c.time ≤ now
    (due.foldl (fun s c => (s.operateAll c.operations).1) s, changes.drop due.length)

def lookAmong (id : TaskId) (w : Site × List Change) (seen : Nat) :
    Cli.Look × (Site × List Change) :=
  let (look, s) := w.1.look false id seen
  (look, (s, w.2))

/-- Follows a log; none if it does not end within a day.  Changes that come later than the end are
made after it. -/
def Site.follow (s : Site) (raw : String) (since : Nat) (changes : List Change) :
    Option Cli.Report × Site :=
  let finish := fun (w : Site × List Change) =>
    w.2.foldl (fun s c => (s.operateAll c.operations).1) w.1
  match Cli.readId raw with
  | .error failure => (some (.fail failure), finish (s, changes))
  | .ok id =>
    match s.look true id since with
    | (.ended r, s) => (some r, finish (s, changes))
    | (.more lines seen, s) =>
      let (r, w) :=
        Cli.followLoop (lookAmong id) (fun count w => applyChanges (count * Cli.followInterval) w)
          (dayMs / Cli.followInterval) 1 (s, changes) seen
      (r.map (·.after lines), finish w)

end TaskQueue.Simulation
