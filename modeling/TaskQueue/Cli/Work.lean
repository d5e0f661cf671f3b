import TaskQueue.Cli.Report
import TaskQueue.Runner.Host
import TaskQueue.Shell.Work
import TaskQueue.Store.Session

/-!
# Working off the queue

The queue is drained once; the tasks are commands for the shell.  Nobody asks a running command to
stop, and there are no hooks.
-/

namespace TaskQueue.Cli

open Execution (Watch)
open Runner (Call Course Host)
open Store (Session)
open Time (ZonedTime)

/-- A queue, and where its tasks are worked off. -/
structure Workplace where
  session : Session
  surroundings : Shell.Surroundings

/-- Offers lines to the log of a task; whether it takes them does not matter. -/
def offer (id : TaskId) (window : Nat) (lines : List String) (s : Session) : Session :=
  (s.perform default (.append id lines window)).store

namespace Workplace

def request (w : Workplace) (r : Store.Request) : Except Fault r.Answer × Workplace :=
  let step := w.session.perform default r
  (step.result, { w with session := step.store })

/-- Answers a call of the runner.  A command may leave files behind. -/
def answer (config : Runner.Config) : (c : Call) → Workplace → c.Reply × Workplace
  | .onStart _, w => (.fine, w)
  | .reset id, w => w.request (.patch id .runReset)
  | .execute t, w =>
    let (verdict, session, surroundings) :=
      w.surroundings.perform (offer t.id config.logWindow) config.logWindow false t.payload
        w.session
    (⟨verdict, .start t.id⟩, ⟨session, surroundings⟩)
  | .finalize id p status, w => w.request (.finalize id p status)
  | .wait _, w => ((), w)
  | .onFinish _, w => (.fine, w)

def host (config : Runner.Config) (time : ZonedTime) : Host Workplace where
  config := config
  claim := fun w => w.request (.claim config.scanLimit time)
  answer := answer config
  now := fun _ => 0

/-- The number of calls after which a drain is given up. -/
def maxCalls : Nat := 1000000

/-- Drains the queue once; there is no report if the drain is given up. -/
def work (w : Workplace) (config : Runner.Config) (time : ZonedTime) : Option Report × Workplace :=
  match config.flaw? with
  | some flaw => (some (.fail (.invalidRunner flaw)), w)
  | none =>
    match (Course.start w).run (host config time) maxCalls with
    | none => (none, w)
    | some c => (some (if c.drain.isSome then .done [] else ⟨[], .crashed⟩), c.state)

end Workplace

end TaskQueue.Cli
