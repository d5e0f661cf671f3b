import TaskQueue.Simulation.Machine

/-!
# Running a scenario

`Machine.step` lets one process that does not wait do one thing, or moves the clock to the next
deadline when all wait.  `Scenario.run` goes on until the operator has nothing more to do.
-/

namespace TaskQueue.Simulation

open Execution (Attempts Output Persisted Verdict Watch)
open Runner (Drain HookReply Stage Timing Triggered)
open Time (Duration)

def metAt (deadline : Nat) : Nat :=
  (deadline + nanosPerMs - 1) / nanosPerMs

/-- How late a tick may be before the next one is counted from it. -/
def tickTolerance : Nat := 5 * nanosPerMs

def nextTick (now deadline period : Nat) : Nat :=
  if deadline + tickTolerance < now then now + period else deadline + period

inductive Value where
  | triggered (t : Triggered)
  | persisted (p : Persisted)
  | followed (r : Cli.Report)
  | stopped
  | crashed (detail : String)

namespace Machine

/-- Goes on with a process without waiting. -/
def proceed (m : Machine) (key : Nat) (stack : List Frame) : Machine :=
  m.setProcess ⟨key, stack, .ready⟩

def pause (m : Machine) (key : Nat) (stack : List Frame) (wait : Wait) : Machine :=
  m.setProcess ⟨key, stack, wait⟩

/-- Gives up the frames of a process: a drain opens the gate again, and its watch ends. -/
def unwind (m : Machine) : List Frame → Machine
  | [] => m
  | .drain _ :: rest => unwind { m with shared := m.shared.abandon } rest
  | .executing _ _ _ _ watch :: rest =>
    let m := { m with shared := m.shared.abandon }
    unwind (m.dropProcess watch) rest
  | _ :: rest => unwind m rest

def crashVerdict (detail : String) : Verdict :=
  .failure (.ofMessage s!"Executor panicked: {detail}")

def crash (m : Machine) (key : Nat) (stack : List Frame) (detail : String) : Machine :=
  let m := m.unwind stack
  match stack.getLast? with
  | some .background => m.complete key (.joined .crashed)
  | some (.execution _ _ _) => m.complete key (.executed (crashVerdict detail))
  | _ => { m with halt := some .crashed }

def deliver (m : Machine) (key : Nat) (stack : List Frame) (v : Value) : Machine :=
  match stack, v with
  | stack, .crashed detail => m.crash key stack detail
  | .operator _ :: rest, v =>
    let s :=
      match v with
      | .triggered t => Seen.triggered t
      | .persisted p => .persisted p m.now
      | .followed r => .followed r
      | .stopped => .stoppedAt m.now
      | .crashed _ => .nothing
    (m.present s).proceed key (.operator .nothing :: rest)
  | .background :: _, .triggered t => m.complete key (.joined (.finished t))
  | .execution t watch deeds :: rest, .triggered outcome =>
    (m.log (.triggered outcome m.shared.gate.running)).proceed key
      (.execution t watch deeds :: rest)
  | stack, _ => m.proceed key stack

/-- Goes on with a drain; a pass that is to begin does so at once. -/
def drain (m : Machine) (key : Nat) (rest : List Frame) : Drain → Machine
  | .opening pass =>
    let (d, shared) := Drain.opened pass m.shared
    { m with shared := shared }.proceed key (.drain d :: rest)
  | d => m.proceed key (.drain d :: rest)

def trigger (m : Machine) (key : Nat) (stack : List Frame) : Machine :=
  match Drain.start m.shared with
  | (some d, shared) => { m with shared := shared }.drain key stack d
  | (none, shared) => { m with shared := shared }.deliver key stack (.triggered .coalesced)

def enterStage (m : Machine) (key : Nat) (rest : List Frame) (pass began : Nat) (s : Stage) :
    Machine :=
  match s with
  | .executing t =>
    let (watch, m) := m.startWatch none t.id m.config.pollInterval.total
    let (execution, m) := m.addProcess [.execution t watch none]
    m.pause key (.executing pass began t execution watch :: rest) (.process execution)
  | .waiting d _ =>
    m.pause key (.drain (.processing pass began s) :: rest) (.deadline (m.nanos + d.total))
  | s => m.proceed key (.drain (.processing pass began s) :: rest)

def replyTo (m : Machine) (key : Nat) (rest : List Frame) (pass began : Nat) (s : Stage)
    (reply : s.call.Reply) : Machine :=
  let (next, notices) := s.next m.config ⟨began, m.nanos⟩ reply
  let m := m.report notices
  match next with
  | some s => m.enterStage key rest pass began s
  | none =>
    let (d, shared) := Drain.staged pass began m.shared none
    { m with shared := shared }.proceed key (.drain d :: rest)

def stepStage (m : Machine) (key : Nat) (rest : List Frame) (pass began : Nat) :
    Stage → Machine
  | .starting t =>
    (m.logHook (.started t.id t.result.seq)).replyTo key rest pass began (.starting t)
      (m.hook t.id .start)
  | .resetting t =>
    let (reply, m) := m.callStore .patch t.id (.patch t.id .runReset)
    m.replyTo key rest pass began (.resetting t) reply
  | .executing t => m.enterStage key rest pass began (.executing t)
  | .writing c =>
    let (reply, m) := m.callStore .finalize c.task (.finalize c.task c.patch c.status)
    m.replyTo key rest pass began (.writing c) reply
  | .waiting d c => m.replyTo key rest pass began (.waiting d c) ()
  | .finishing f =>
    (m.logHook (.finished f)).replyTo key rest pass began (.finishing f) (m.hook f.task .finish)

def stepDrain (m : Machine) (key : Nat) (rest : List Frame) : Drain → Machine
  | .opening pass => m.drain key rest (.opening pass)
  | .claiming pass =>
    let (result, m) :=
      m.callStore .claim default (.claim m.config.scanLimit m.claimTime)
    match Drain.claimed pass m.nanos result with
    | (some d, notices) => (m.report notices).proceed key (.drain d :: rest)
    | (none, notices) =>
      (m.report notices).crash key (.drain (.claiming pass) :: rest) "injected panic"
  | .processing pass began s => m.stepStage key rest pass began s
  | .ending pass =>
    let (d, shared) := Drain.passed pass m.shared
    { m with shared := shared }.drain key rest d
  | .done passes => m.deliver key rest (.triggered (.drained passes))

/-- A drain takes the verdict of an execution, and its watch ends. -/
def stepExecuted (m : Machine) (key : Nat) (rest : List Frame) (pass began : Nat) (t : Task)
    (execution watch : Nat) : Machine :=
  match m.completion? execution, m.watched? watch with
  | some (.executed v), some w =>
    (m.dropProcess watch).replyTo key rest pass began (.executing t) ⟨v, w.watch⟩
  | _, _ => { m with halt := some .crashed }

def stepExecution (m : Machine) (key : Nat) (t : Task) (watch : Nat) :
    Option (List Deed) → Machine
  | none =>
    let m := m.log (.execute t.id t.status t.retries)
    let (deeds, m) := m.takeScript t.id
    m.proceed key [.execution t watch (some deeds)]
  | some [] => m.complete key (.executed (.success (.ofLogs [])))
  | some (deed :: rest) =>
    let stack := [Frame.execution t watch (some rest)]
    match deed with
    | .sleep ms => m.pause key stack (.deadline (m.nanos + ms * nanosPerMs))
    | .awaitCancel =>
      if m.isCancelled watch then (m.log (.cancelled t.id)).proceed key stack
      else m.pause key [.execution t watch (some (deed :: rest))] (.cancellation watch)
    | .trigger => m.trigger key stack
    | .operate label op =>
      let (o, m) := m.operate op
      (m.log (.did label o)).proceed key stack
    | .finish v => m.complete key (.executed v)
    | .crash detail => m.complete key (.executed (crashVerdict detail))

def stepWatch (m : Machine) (key watch deadline period : Nat) : Machine :=
  match m.watched? watch with
  | none => m.dropProcess key
  | some w =>
    let (answer, m) := m.callStore .control w.watch.task (.control w.watch.task)
    let (next, notices) := w.watch.poll answer
    let m := (m.setWatch watch next).report notices
    let m :=
      match w.name with
      | some name => if next.cancelled then m.log (.watchCancelled name) else m
      | none => m
    match next.vigil with
    | .watching =>
      let deadline := nextTick m.nanos deadline period
      m.pause key [.watching watch deadline period] (.deadline deadline)
    | _ => m.dropProcess key

/-- One round of periodic triggers: it ends when it is time to stop. -/
def stepPeriodic (m : Machine) (key : Nat) (rest : List Frame) (deadline period stop : Nat) :
    Machine :=
  if stop ≤ m.now then m.deliver key rest .stopped
  else if metAt deadline ≤ m.now then
    m.trigger key (.periodic (nextTick m.nanos deadline period) period stop :: rest)
  else
    m.pause key (.periodic deadline period stop :: rest)
      (.deadline (min deadline (stop * nanosPerMs)))

def stepPersisting (m : Machine) (key : Nat) (rest : List Frame) (id : TaskId) (p : ResultPatch)
    (status : Status) (a : Attempts) : Machine :=
  match m.callStore .finalize id (.finalize id p status) with
  | (.error (.crash detail), m) => m.crash key rest detail
  | (.error (.error e), m) => go m (.error e)
  | (.ok u, m) => go m (.ok u)
where
  go (m : Machine) (answer : Except StoreError Unit) : Machine :=
    let (next, notices) := a.after m.config.retry m.nanos id status answer
    let m := m.report notices
    match next with
    | .ended result => m.deliver key rest (.persisted result)
    | .again delay a =>
      m.pause key (.persisting id p status a :: rest) (.deadline (m.nanos + delay.total))

/-- One thing that a follower of a log does: the changes that are due, then a look. -/
def stepFollowing (m : Machine) (key : Nat) (rest : List Frame) (id : TaskId) (seen : Nat)
    (lines : List String) (nextLook : Nat) : List Change → Machine
  | c :: changes =>
    if c.time ≤ m.now then
      let (site, notices) := m.site.operateAll c.operations
      ({ m with site := site }.report notices).proceed key
        (.following id seen lines nextLook changes :: rest)
    else look (c :: changes)
  | [] => look []
where
  /-- Looks if it is time, else waits. -/
  look (changes : List Change) : Machine :=
    if nextLook ≤ m.now then
      match m.site.look false id seen with
      | (.ended r, site) =>
        { m with site := site }.deliver key rest (.followed (r.after lines))
      | (.more more seen, site) =>
        { m with site := site }.proceed key
          (.following id seen (lines ++ more) (nextLook + Cli.followInterval) changes :: rest)
    else
      let due := (changes.map Change.time).foldl min nextLook
      m.pause key (.following id seen lines nextLook changes :: rest) (.deadline (due * nanosPerMs))

def startFollowing (m : Machine) (key : Nat) (rest : List Frame) (raw : String) (since : Nat)
    (changes : List Change) : Machine :=
  match Cli.readId raw with
  | .error failure => m.deliver key rest (.followed (.fail failure))
  | .ok id =>
    match m.site.look true id since with
    | (.ended r, site) => { m with site := site }.deliver key rest (.followed r)
    | (.more lines seen, site) =>
      let changes := changes.map fun c => { c with time := m.now + c.time }
      { m with site := site }.proceed key
        (.following id seen lines (m.now + Cli.followInterval) changes :: rest)

def abort (m : Machine) (name : String) : Machine :=
  match m.names.find? fun p => p.1 = name with
  | none => m.present .unknownName
  | some (_, key) =>
    let m :=
      match m.processes.find? fun p => p.key = key with
      | none => m
      | some p => (m.unwind p.stack).complete key (.joined .aborted)
    m.present (.running m.shared.gate.running)

def onWatch (m : Machine) (name : String) (f : Watched → Machine) : Machine :=
  match m.watchNamed? name with
  | none => m.present .unknownName
  | some w => f w

def act (m : Machine) (key : Nat) (rest : List Frame) (a : Act) : Machine :=
  let stack := Frame.operator .nothing :: rest
  match a with
  | .operate op =>
    let (o, m) := m.operate op
    m.present (.operated o)
  | .follow id since changes => m.startFollowing key stack id since changes
  | .trigger => m.trigger key stack
  | .spawn name =>
    let (spawned, m) := m.addProcess [.background]
    let m := m.trigger spawned [.background]
    { m with names := (name, spawned) :: m.names }.pause key (.operator .spawned :: rest) .quiet
  | .join name =>
    match m.names.find? fun p => p.1 = name with
    | none => m.present .unknownName
    | some (_, k) => m.pause key (.operator (.joined k) :: rest) (.process k)
  | .abort name => m.abort name
  | .periodic interval stopAfter =>
    if interval = 0 then { m with halt := some .crashed }
    else
      m.proceed key
        (.periodic m.nanos (interval * nanosPerMs) (m.now + stopAfter) :: stack)
  | .sleep ms =>
    m.pause key (.operator .slept :: rest) (.deadline (m.nanos + ms * nanosPerMs))
  | .setNow time => { m with claimTime := time }.present .nothing
  | .stats => m.present (.stats m.shared.stats m.shared.gate.running)
  | .persist id p status => m.proceed key (.persisting id p status .none :: stack)
  | .watch name id interval =>
    let (_, m) := m.startWatch (some name) id (interval * nanosPerMs)
    m.present .nothing
  | .watchState name => m.onWatch name fun w => m.present (.watch w.watch.reason w.watch.cancelled)
  | .watchRecord name reason =>
    m.onWatch name fun w =>
      let (r, next) := w.watch.record reason
      (m.setWatch w.key next).present (.watch (some r) next.cancelled)
  | .watchStop name =>
    m.onWatch name fun w =>
      ((m.dropProcess w.key).report w.watch.stopNotices).present (.cancelled w.watch.cancelled)
  | .watchDrop name => m.onWatch name fun w => (m.dropProcess w.key).present .nothing

/-- One thing that the operator does: the end of what was in progress, or the next act. -/
def stepOperator (m : Machine) (key : Nat) (rest : List Frame) : Pending → Machine
  | .slept => (m.present (.time m.now)).proceed key (.operator .nothing :: rest)
  | .spawned =>
    (m.present (.running m.shared.gate.running)).proceed key (.operator .nothing :: rest)
  | .joined k =>
    let m :=
      match m.completion? k with
      | some (.joined j) => m.present (.joined j)
      | _ => m.present .unknownName
    m.proceed key (.operator .nothing :: rest)
  | .nothing =>
    match m.acts with
    | [] => { m with halt := some .finished }
    | a :: acts => { m with acts := acts, actBegan := m.now }.act key rest a

def stepProcess (m : Machine) (p : Process) : Machine :=
  match p.stack with
  | [] => m.dropProcess p.key
  | frame :: rest =>
    match frame with
    | .operator pending => m.stepOperator p.key rest pending
    | .following id seen lines nextLook changes =>
      m.stepFollowing p.key rest id seen lines nextLook changes
    | .background => m.dropProcess p.key
    | .drain d => m.stepDrain p.key rest d
    | .executing pass began t execution watch =>
      m.stepExecuted p.key rest pass began t execution watch
    | .execution t watch deeds => m.stepExecution p.key t watch deeds
    | .watching watch deadline period =>
      if metAt deadline ≤ m.now then m.stepWatch p.key watch deadline period
      else m.pause p.key p.stack (.deadline deadline)
    | .periodic deadline period stop => m.stepPeriodic p.key rest deadline period stop
    | .persisting id patch status a => m.stepPersisting p.key rest id patch status a

/-- Whether a process can go on, others that wait for quiet apart. -/
def isReady (m : Machine) (p : Process) : Bool :=
  match p.wait with
  | .ready => true
  | .deadline d => metAt d ≤ m.now
  | .cancellation watch => m.isCancelled watch
  | .process key => m.processes.all fun q => q.key ≠ key
  | .quiet => false

def isQuiet (p : Process) : Bool :=
  match p.wait with
  | .quiet => true
  | _ => false

def nextDeadline? (m : Machine) : Option Nat :=
  (m.processes.filterMap fun p =>
    match p.wait with
    | .deadline d => some (metAt d)
    | _ => none).min?

/-- Lets one process do one thing, or moves the clock on.  An act that lasts more than a day ends
the simulation. -/
def step (m : Machine) : Machine :=
  match m.processes.find? m.isReady with
  | some p => m.stepProcess p
  | none =>
    match m.processes.find? isQuiet with
    | some p => m.stepProcess p
    | none =>
      match m.nextDeadline? with
      | none => { m with halt := some .timeout }
      | some t =>
        if m.actBegan + dayMs < t then { m with halt := some .timeout } else { m with now := t }

/-- Runs the machine until it halts, for at most `fuel` steps. -/
def run : Nat → Machine → Machine
  | 0, m => { m with halt := some .timeout }
  | fuel + 1, m => if m.halt.isSome then m else run fuel m.step

end Machine

/-- The number of steps after which a simulation is given up. -/
def maxSteps : Nat := 1000000000

def Scenario.machine (s : Scenario) : Machine where
  config := s.config
  hooks := s.hooks
  now := 0
  site := s.site
  claimTime := s.claimTime
  shared := .idle
  troubles := s.troubles
  scripts := s.scripts
  acts := s.acts
  actBegan := 0
  seen := []
  journal := []
  notices := []
  processes := [⟨0, [.operator .nothing], .ready⟩]
  watches := []
  completions := []
  names := []
  nextKey := 1
  halt := none

def Scenario.run (s : Scenario) : Machine :=
  s.machine.run maxSteps

end TaskQueue.Simulation
