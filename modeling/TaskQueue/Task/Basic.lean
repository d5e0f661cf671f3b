import TaskQueue.Task.Id
import TaskQueue.Task.Result
import TaskQueue.Task.Status
import TaskQueue.Time.Instant

/-!
# Tasks

A task is a piece of work in the queue: what is to be done (`payload`), where it stands (`status`)
and what came of it (`result`).  Tasks are ordered by the time at which they were created, and
tasks of one time by their identifiers.
-/

namespace TaskQueue

open Time (Instant)

structure Task where
  id : TaskId
  group : Option String
  eventType : String
  status : Status
  archived : Bool
  payload : Json
  retries : Int
  result : TaskResult
  createdAt : Instant
  updatedAt : Instant
  deriving DecidableEq, Repr, Inhabited

structure NewTask where
  group : Option String
  eventType : String
  payload : Json
  deriving DecidableEq, Repr, Inhabited

structure ControlState where
  status : Status
  archived : Bool
  deriving DecidableEq, Repr, Inhabited

/-- Which tasks to show; a part that is left out admits all. -/
structure TaskFilter where
  status : Option Status
  archived : Option Bool
  deriving DecidableEq, Repr, Inhabited

/-- The number of retries that a task can have, plus one. -/
def retryBound : Int := 2 ^ (31 : Nat)

namespace TaskFilter

def all : TaskFilter :=
  ⟨none, none⟩

def waiting : TaskFilter :=
  ⟨some .queued, some false⟩

def admits (f : TaskFilter) (status : Status) (archived : Bool) : Bool :=
  f.status.all (· = status) ∧ f.archived.all (· = archived)

end TaskFilter

namespace Task

/-- The queued task with the given identifier, created at the given instant. -/
def ofNew (new : NewTask) (id : TaskId) (created : Instant) : Task where
  id := id
  group := new.group
  eventType := new.eventType
  status := .queued
  archived := false
  payload := new.payload
  retries := 0
  result := .empty
  createdAt := created
  updatedAt := created

def control (t : Task) : ControlState :=
  ⟨t.status, t.archived⟩

/-- Whether `a` is older than `b`. -/
def before (a b : Task) : Bool :=
  a.createdAt.before b.createdAt ∨ (a.createdAt = b.createdAt ∧ a.id.before b.id)

end Task

def TaskFilter.matches (f : TaskFilter) (t : Task) : Bool :=
  f.admits t.status t.archived

end TaskQueue
