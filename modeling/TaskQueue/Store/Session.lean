import TaskQueue.Store.Clock
import TaskQueue.Store.Request

/-!
# Using a store

A session is a store together with its clock.  Each use of the store reads the clock once, to the
microsecond, and the clock goes on by one.
-/

namespace TaskQueue.Store

open Time (Instant)

structure Session where
  backend : Backend
  clock : Clock
  reading : Instant

namespace Session

def start (backend : Backend) (reading : Instant) : Session :=
  ⟨backend, .fresh, reading⟩

def moment (s : Session) (freshId : TaskId) : Moment × Session :=
  let (created, clock) := s.clock.stamp s.reading
  (⟨s.reading.truncated, freshId, created⟩,
    { s with clock := clock, reading := s.reading.nextMicrosecond })

def use (s : Session) (freshId : TaskId) (f : Backend → Moment → α × Backend) : α × Session :=
  let (moment, s) := s.moment freshId
  let (a, b) := f s.backend moment
  (a, { s with backend := b })

/-- Performs a request; a new task gets the identifier. -/
def perform (s : Session) (freshId : TaskId) (r : Request) : Step Session r.Answer :=
  let (moment, s) := s.moment freshId
  (s.backend.perform moment r).mapStore fun b => { s with backend := b }

end Session

end TaskQueue.Store
