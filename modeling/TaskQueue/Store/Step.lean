import TaskQueue.Notice

/-!
# Steps of a store

An operation on a store has a result or a fault, leaves the store in some state, and may report
notices.  The surroundings give each operation a `Moment`: what the clock shows, and the identifier
and the time of creation that a new task gets.
-/

namespace TaskQueue.Store

open Time (Instant)

structure Moment where
  now : Instant
  freshId : TaskId
  created : Instant
  deriving DecidableEq, Repr, Inhabited

structure Step (σ α : Type) where
  result : Except Fault α
  store : σ
  notices : List Notice

namespace Step

def done (store : σ) (a : α) : Step σ α :=
  ⟨.ok a, store, []⟩

def fail (store : σ) (e : StoreError) : Step σ α :=
  ⟨.error (.error e), store, []⟩

def crash (store : σ) (detail : String) : Step σ α :=
  ⟨.error (.crash detail), store, []⟩

def mapStore (f : σ → τ) (s : Step σ α) : Step τ α :=
  { result := s.result, store := f s.store, notices := s.notices }

end Step

end TaskQueue.Store
