import TaskQueue.Shell.Builtin

/-!
# Processes of a shell

A shell waits for the processes that it starts, says how one ended if that was by a signal, and takes
the signals that it has been sent in the meantime.
-/

namespace TaskQueue.Shell

namespace Action

/-- Stops a process that has taken all steps that it may. -/
def exhaust : Action α := do
  throw (.killed (← get).allowance.signal)

def step : Action Unit := do
  let s ← get
  if s.allowance.steps ≤ s.outside.steps then exhaust
  set { s with outside := { s.outside with steps := s.outside.steps + 1 } }

/-- The number of steps that a process may take whose output nothing may read any more. -/
def maxUnreadSteps : Nat := 2 ^ (16 : Nat)

/-- Limits the steps of a process that writes to a pipe: at the end of them it is taken to be stopped
by the signal for a pipe that nothing reads. -/
def limitWriter : Action Unit :=
  modify fun s =>
    { s with allowance := ⟨min s.allowance.steps (s.outside.steps + maxUnreadSteps), 13⟩ }

def takeSignals : Action Unit := do
  let s ← get
  unless s.isSubshell ∨ s.outside.signals.isEmpty do
    let (mine, others) := s.outside.signals.partition fun p => p.1 = s.process
    set { s with outside := { s.outside with signals := others } }
    for (_, signal) in mine do Builtin.deliver signal

/-- Runs a process of its own: its status, and the signal by which it was ended. -/
def runChild (f : Action Unit) : Action (Nat × Option Nat) := do
  match ← apart f with
  | some (.killed signal) => return (128 + signal, some signal)
  | _ => return ((← get).status, none)

def await (f : Action Unit) : Action Nat := do
  let (status, signal) ← runChild f
  mourn signal
  setStatus status
  takeSignals
  return (← get).status

/-- Becomes a part of the shell that runs as a process of its own. -/
def enterSubshell : Action Unit :=
  modify fun s =>
    { s with
      isSubshell := true, caught := [], jobs := []
      traps := s.traps.filter fun p => p.2 = "" }

def nullInput : Stream :=
  ⟨.null, true, false⟩

/-- Puts off a process that is to run in the background; it is the last one of some new processes. -/
def defer (processes : Nat) (script : Script) (redirections : List Redirection) : Action Unit :=
  modify fun s =>
    let process := s.outside.nextProcess + processes - 1
    { s with
      deferred := ⟨s.toSituation, process, script, redirections⟩ :: s.deferred
      jobs := ⟨process, 0, none, false⟩ :: s.jobs
      background := some process
      outside := { s.outside with nextProcess := process + 1 } }

/-- Becomes a process that was put off, in what is shared now. -/
def enterDeferred (d : Deferred) : Action Unit :=
  modify fun s =>
    let (k, outside) := s.outside.openStream nullInput
    let situation := { d.situation with outside }
    { toSituation := situation, deferred := [] : State }.direct 0 (some k)

/-- Does something, and tells why it has stopped; signals stop whatever is around it, too. -/
def apartly (f : Action Nat) : Action (Option Stop) := do
  try
    let _ ← f
    return none
  catch
    | .killed signal => throw (.killed signal)
    | stop => return some stop

/-- Does something that an error may stop, and so may the wish to end. -/
def tillEnd (f : Action Unit) : Action Unit := do
  match ← apartly (do f; return 0) with
  | _ => return

end Action

end TaskQueue.Shell
