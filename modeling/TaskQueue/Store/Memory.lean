import TaskQueue.Store.Selection
import TaskQueue.Store.Step

/-!
# The store in memory

Tasks are kept as they are, one to an identifier.  An operation that crashes while it holds the
lock leaves the lock poisoned, and from then on every operation that needs the lock is refused.
-/

namespace TaskQueue.Store

open Log (Snapshot)
open Time (Instant ZonedTime)

structure Memory where
  tasks : List Task
  poisoned : Bool
  deriving DecidableEq, Repr, Inhabited

namespace Memory

/-- The store without tasks. -/
def empty : Memory :=
  ⟨[], false⟩

def find? (m : Memory) (id : TaskId) : Option Task :=
  m.tasks.find? fun t => t.id = id

def replace (m : Memory) (t : Task) : Memory :=
  { m with tasks := m.tasks.map fun u => if u.id = t.id then t else u }

def locked (m : Memory) (f : Unit → Step Memory α) : Step Memory α :=
  if m.poisoned then .fail m .lockPoisoned else f ()

/-- A counter leaves its range, and the lock is left poisoned. -/
def crash (m : Memory) : Step Memory α :=
  .crash { m with poisoned := true } "attempt to add with overflow"

/-- Runs an operation on the task with the given identifier, or gives the answer for a task that
is not there. -/
def withTask (m : Memory) (id : TaskId) (missing : Except Fault α) (f : Task → Step Memory α) :
    Step Memory α :=
  m.locked fun _ =>
    match m.find? id with
    | none => ⟨missing, m, []⟩
    | some t => f t

def size (m : Memory) : Step Memory Nat :=
  m.locked fun _ => .done m m.tasks.length

def isEmpty (m : Memory) : Step Memory Bool :=
  let s := m.size
  { result := s.result.map fun n => n = 0, store := s.store, notices := s.notices }

/-- Puts a whole task in, in the place of one with the same identifier. -/
def insert (m : Memory) (t : Task) : Step Memory Unit :=
  m.locked fun _ =>
    .done { m with tasks := t :: m.tasks.filter fun u => u.id ≠ t.id } ()

def enqueue (m : Memory) (moment : Moment) (new : NewTask) : Step Memory Task :=
  let t := Task.ofNew new moment.freshId moment.created
  let s := m.insert t
  { result := s.result.map fun _ => t, store := s.store, notices := s.notices }

def get (m : Memory) (id : TaskId) : Step Memory (Option Task) :=
  m.locked fun _ => .done m (m.find? id)

def list (m : Memory) (filter : TaskFilter) (limit : Nat) : Step Memory (List Task) :=
  m.locked fun _ => .done m (oldest m.tasks filter limit)

/-- Goes through the candidates, reports on their schedules, and takes the first one whose window
is open at the given hour. -/
def pick (hour : Nat) : List Task → List Notice × Option Task
  | [] => ([], none)
  | t :: rest =>
    let notices := Schedule.notices t.payload
    if Schedule.admits t.payload hour then (notices, some t)
    else
      let (more, picked) := pick hour rest
      (notices ++ more, picked)

/-- Hands out the oldest waiting task whose window is open, looking at no more than `limit`. -/
def claim (m : Memory) (moment : Moment) (limit : Nat) (time : ZonedTime) :
    Step Memory (Option Task) :=
  m.locked fun _ =>
    match pick time.hour (oldest m.tasks .waiting limit) with
    | (notices, none) => ⟨.ok none, m, notices⟩
    | (notices, some t) =>
      let taken := { t with status := .processing, updatedAt := moment.now }
      ⟨.ok (some taken), m.replace taken, notices⟩

def control (m : Memory) (id : TaskId) : Step Memory (Option ControlState) :=
  m.locked fun _ => .done m ((m.find? id).map Task.control)

def patch (m : Memory) (moment : Moment) (id : TaskId) (p : ResultPatch) : Step Memory Unit :=
  m.withTask id (.error (.error (.taskNotFound id))) fun t =>
    .done (m.replace { t with result := t.result.apply p, updatedAt := moment.now }) ()

def finalize (m : Memory) (moment : Moment) (id : TaskId) (p : ResultPatch) (status : Status) :
    Step Memory Unit :=
  if status.isTerminal then
    m.withTask id (.error (.error (.taskNotFound id))) fun t =>
      .done
        (m.replace
          { t with result := t.result.applyFinal p, status := status, updatedAt := moment.now })
        ()
  else .fail m (.invalidStatus status.name)

def append (m : Memory) (moment : Moment) (id : TaskId) (lines : List String) (window : Nat) :
    Step Memory Snapshot :=
  m.withTask id (.error (.error (.taskNotFound id))) fun t =>
    match t.result.snapshot.push? lines window with
    | none => m.crash
    | some s =>
      .done (m.replace { t with result := t.result.withLog s, updatedAt := moment.now }) s

def snapshot (m : Memory) (id : TaskId) : Step Memory (Option Snapshot) :=
  m.locked fun _ => .done m ((m.find? id).map fun t => t.result.snapshot)

def pause (m : Memory) (moment : Moment) (id : TaskId) : Step Memory Bool :=
  m.withTask id (.ok false) fun t =>
    if t.status.isPausable then
      .done (m.replace { t with status := .paused, updatedAt := moment.now }) true
    else .done m false

/-- Puts a task that failed or was paused back into the queue.  The status changes first, so a
crash leaves it changed behind the poisoned lock. -/
def retry (m : Memory) (moment : Moment) (id : TaskId) : Step Memory Bool :=
  m.withTask id (.ok false) fun t =>
    if t.status.isRetryable then
      let queued := { t with status := .queued }
      if t.retries + 1 < retryBound then
        .done
          (m.replace
            { queued with
              retries := t.retries + 1
              result := t.result.apply .runReset
              updatedAt := moment.now })
          true
      else (m.replace queued).crash
    else .done m false

def archive (m : Memory) (moment : Moment) (id : TaskId) (archived : Bool) : Step Memory Bool :=
  m.withTask id (.ok false) fun t =>
    .done (m.replace { t with archived := archived, updatedAt := moment.now }) true

def delete (m : Memory) (id : TaskId) : Step Memory Bool :=
  m.locked fun _ =>
    .done { m with tasks := m.tasks.filter fun t => t.id ≠ id } (m.find? id).isSome

end Memory

end TaskQueue.Store
