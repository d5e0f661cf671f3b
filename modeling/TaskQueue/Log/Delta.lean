import TaskQueue.Log.Snapshot

/-!
# What an observer has to do

An observer that has seen the lines up to some number compares this number with a snapshot.
`reconcile?` tells it to append the lines that are new to it, to start over with the lines of the
snapshot, or to do nothing.
-/

namespace TaskQueue.Log

inductive Delta where
  | noop
  | append (lines : List String) (seen : Nat)
  | resync (lines : List String) (seen : Nat)
  deriving DecidableEq, Repr, Inhabited

/-- What an observer that has seen `seen` lines has to do to show the snapshot.  A snapshot that
counts fewer lines is out of date, unless the log is back at its beginning. -/
def reconcile? (seen : Nat) (s : Snapshot) : Option Delta :=
  if !s.isConsistent then some (.resync s.lines s.seq)
  else if s.seq = seen then some .noop
  else if s.seq < seen then some (if s.isReset then .resync [] 0 else .noop)
  else if s.lines.isEmpty then some (.resync [] s.seq)
  else
    s.oldest?.map fun oldest =>
      if seen + 1 < oldest then .resync s.lines s.seq
      else .append (s.lines.drop (seen + 1 - oldest)) s.seq

end TaskQueue.Log
