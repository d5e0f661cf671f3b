import TaskQueue.Simulation.Scenario

/-!
# The machine of a simulation

The machine runs processes in turn: the operator, triggers in the background, executions and
watches.  A process is a stack of frames, and it may wait for a time, for a cancellation, for the
end of another process, or for all others to wait.  Times of the machine are whole milliseconds;
deadlines are in nanoseconds, and one is met at the first millisecond that is not before it.
-/

namespace TaskQueue.Simulation

open Execution (AbortReason Attempts Persisted Verdict Watch)
open Runner (Drain HookReply Shared Stage Timing Triggered)
open Store (Request)
open Time (Duration ZonedTime)

def nanosPerMs : Nat := 10 ^ (6 : Nat)

inductive Wait where
  | ready
  | deadline (nanos : Nat)
  | cancellation (watch : Nat)
  | process (key : Nat)
  | quiet

inductive Pending where
  | nothing
  | slept
  | spawned
  | joined (key : Nat)

inductive Frame where
  | operator (p : Pending)
  | following (id : TaskId) (seen : Nat) (lines : List String) (nextLook : Nat)
      (changes : List Change)
  | background
  | drain (d : Drain)
  | executing (pass began : Nat) (t : Task) (execution watch : Nat)
  /-- An execution; none if it has not begun. -/
  | execution (t : Task) (watch : Nat) (deeds : Option (List Deed))
  | watching (watch : Nat) (deadline period : Nat)
  | periodic (deadline period stop : Nat)
  | persisting (id : TaskId) (p : ResultPatch) (status : Status) (a : Attempts)

structure Process where
  key : Nat
  stack : List Frame
  wait : Wait

inductive Completion where
  | executed (v : Verdict)
  | joined (j : Joined)

/-- A watch with the name under which the operator knows it. -/
structure Watched where
  key : Nat
  name : Option String
  watch : Watch

inductive Halt where
  | finished
  | crashed
  | timeout
  deriving DecidableEq, Repr

structure Machine where
  config : Runner.Config
  hooks : Option (List (TaskId × HookScript))
  now : Nat
  site : Site
  claimTime : ZonedTime
  shared : Shared
  troubles : Troubles
  scripts : List (TaskId × List (List Deed))
  acts : List Act
  /-- When the act in progress began. -/
  actBegan : Nat
  /-- What the operator has seen, newest first. -/
  seen : List Seen
  /-- The journal with its times, newest first. -/
  journal : List (Nat × Entry)
  /-- The notices, newest first. -/
  notices : List Notice
  processes : List Process
  watches : List Watched
  completions : List (Nat × Completion)
  names : List (String × Nat)
  nextKey : Nat
  halt : Option Halt

namespace Machine

def nanos (m : Machine) : Nat :=
  m.now * nanosPerMs

def log (m : Machine) (e : Entry) : Machine :=
  { m with journal := (m.now, e) :: m.journal }

def report (m : Machine) (notices : List Notice) : Machine :=
  { m with notices := notices.reverse ++ m.notices }

def present (m : Machine) (s : Seen) : Machine :=
  { m with seen := s :: m.seen }

def setProcess (m : Machine) (p : Process) : Machine :=
  { m with processes := m.processes.map fun q => if q.key = p.key then p else q }

def dropProcess (m : Machine) (key : Nat) : Machine :=
  { m with processes := m.processes.filter fun p => p.key ≠ key }

/-- Adds a process, which is ready. -/
def addProcess (m : Machine) (stack : List Frame) : Nat × Machine :=
  (m.nextKey,
    { m with
      processes := m.processes ++ [⟨m.nextKey, stack, .ready⟩]
      nextKey := m.nextKey + 1 })

def complete (m : Machine) (key : Nat) (c : Completion) : Machine :=
  { m.dropProcess key with completions := (key, c) :: m.completions }

def completion? (m : Machine) (key : Nat) : Option Completion :=
  (m.completions.find? fun p => p.1 = key).map Prod.snd

def watched? (m : Machine) (key : Nat) : Option Watched :=
  m.watches.find? fun w => w.key = key

def watchNamed? (m : Machine) (name : String) : Option Watched :=
  m.watches.find? fun w => w.name = some name

def setWatch (m : Machine) (key : Nat) (watch : Watch) : Machine :=
  { m with watches := m.watches.map fun w => if w.key = key then { w with watch := watch } else w }

def isCancelled (m : Machine) (key : Nat) : Bool :=
  (m.watched? key).any (·.watch.cancelled)

/-- Starts a watch with its process; a watch that should look again without any time between dies
at once. -/
def startWatch (m : Machine) (name : Option String) (task : TaskId) (period : Nat) :
    Nat × Machine :=
  let key := m.nextKey
  let fresh := Watch.start task
  if period = 0 then
    (key,
      { m with
        watches := ⟨key, name, { fresh with vigil := .crashed }⟩ :: m.watches
        nextKey := key + 1 })
  else
    let (_, m) := m.addProcess [.watching key (m.nanos + period) period]
    (key, { m with watches := ⟨key, name, fresh⟩ :: m.watches })

/-- Calls the store on behalf of the runner, unless something goes wrong. -/
def callStore (m : Machine) (name : CallName) (id : TaskId) (r : Request) :
    Except Fault r.Answer × Machine :=
  let (trouble, troubles) := m.troubles.next name
  let m := { m with troubles := troubles }
  match trouble with
  | some t =>
    match t.fault id with
    | .crash detail => (.error (.crash detail), m)
    | .error e => (.error (.error e), m.log (.call name id (some e)))
  | none =>
    let step := m.site.perform default r
    let m := { m with site := step.store }.report step.notices
    match step.result with
    | .ok a => (.ok a, m.log (.call name id none))
    | .error (.error e) => (.error (.error e), m.log (.call name id (some e)))
    | .error (.crash detail) => (.error (.crash detail), m)

def operate (m : Machine) (op : Operation) : Outcome × Machine :=
  let (o, site, notices) := m.site.operate op
  (o, { m with site := site }.report notices)

def hook (m : Machine) (id : TaskId) (point : HookPoint) : HookReply :=
  match (m.hooks.getD []).find? fun p => p.1 = id with
  | none => .fine
  | some (_, script) =>
    match point with
    | .start => script.start
    | .finish => script.finish

/-- Enters something into the journal if there are hooks. -/
def logHook (m : Machine) (e : Entry) : Machine :=
  if m.hooks.isSome then m.log e else m

def takeScript (m : Machine) (id : TaskId) : List Deed × Machine :=
  match m.scripts.find? fun p => p.1 = id with
  | some (_, deeds :: rest) =>
    (deeds,
      { m with scripts := m.scripts.map fun p => if p.1 = id then (p.1, rest) else p })
  | _ => ([], m)

end Machine

end TaskQueue.Simulation
