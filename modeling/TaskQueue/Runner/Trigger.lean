/-!
# Triggers

A trigger starts a drain unless one is going on; then it is coalesced into it, and the drain makes
another pass when it comes to the end of the one it is in.
-/

namespace TaskQueue.Runner

structure Gate where
  running : Bool
  pending : Bool
  deriving DecidableEq, Repr, Inhabited

/-- Counts since the runner was made.  None of them ever exceeds the number of events that there
have been, so they stay within 64 bits as long as that does. -/
structure Stats where
  drainPasses : Nat
  tasksProcessed : Nat
  coalescedTriggers : Nat
  deriving DecidableEq, Repr, Inhabited

inductive Triggered where
  | coalesced
  | drained (passes : Nat)
  deriving DecidableEq, Repr, Inhabited

structure Shared where
  gate : Gate
  stats : Stats
  deriving DecidableEq, Repr, Inhabited

namespace Shared

def idle : Shared :=
  ⟨⟨false, false⟩, ⟨0, 0, 0⟩⟩

/-- Asks for a drain: true if the caller has to make it. -/
def trigger (s : Shared) : Bool × Shared :=
  if s.gate.running then
    (false,
      { gate := { s.gate with pending := true }
        stats := { s.stats with coalescedTriggers := s.stats.coalescedTriggers + 1 } })
  else (true, { s with gate := ⟨true, false⟩ })

def beginPass (s : Shared) : Shared :=
  { s with stats := { s.stats with drainPasses := s.stats.drainPasses + 1 } }

def countTask (s : Shared) : Shared :=
  { s with stats := { s.stats with tasksProcessed := s.stats.tasksProcessed + 1 } }

/-- A pass ends: true if another one has to follow, else the drain is over. -/
def endPass (s : Shared) : Bool × Shared :=
  if s.gate.pending then (true, { s with gate := { s.gate with pending := false } })
  else (false, { s with gate := { s.gate with running := false } })

def abandon (s : Shared) : Shared :=
  { s with gate := ⟨false, false⟩ }

end Shared

end TaskQueue.Runner
