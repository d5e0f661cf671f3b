import TaskQueue.Store.Step

/-!
# The clock of a store

A clock may stand still or go back.  The times of creation that it gives out increase all the same:
one that would not is moved to a microsecond after the one before.
-/

namespace TaskQueue.Store

open Time (Instant)

structure Clock where
  last : Option Instant
  deriving DecidableEq, Repr, Inhabited

namespace Clock

def fresh : Clock :=
  ⟨none⟩

/-- A time of creation, from what the clock shows. -/
def stamp (c : Clock) (reading : Instant) : Instant × Clock :=
  let t := reading.truncated
  let t :=
    match c.last with
    | none => t
    | some last => if last.before t then t else last.nextMicrosecond
  (t, ⟨some t⟩)

end Clock

end TaskQueue.Store
