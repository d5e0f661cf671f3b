import TaskQueue.Power

/-!
# Durations

A duration is a whole number of seconds below `2 ^ 64` and the nanoseconds after it.  Durations are
compared by second first, and multiplied part by part with a carry.
-/

namespace TaskQueue.Time

structure Duration where
  seconds : Nat
  nanos : Nat
  seconds_lt : seconds < 2 ^ (64 : Nat)
  nanos_lt : nanos < 10 ^ (9 : Nat)
  deriving DecidableEq, Repr

namespace Duration

def total (d : Duration) : Nat :=
  d.seconds * 10 ^ (9 : Nat) + d.nanos

/-- The duration of a number of seconds and any number of nanoseconds; none if it is too long. -/
def make? (seconds nanos : Nat) : Option Duration :=
  if h : seconds + nanos / 10 ^ (9 : Nat) < 2 ^ (64 : Nat) then
    some ⟨seconds + nanos / 10 ^ (9 : Nat), nanos % 10 ^ (9 : Nat), h, Nat.mod_lt _ (by decide)⟩
  else none

def zero : Duration :=
  ⟨0, 0, by decide, by decide⟩

instance : Inhabited Duration :=
  ⟨zero⟩

/-- A number of milliseconds. -/
def ofMillis (ms : Nat) : Duration :=
  (make? (ms / 1000) (ms % 1000 * 10 ^ (6 : Nat))).getD zero

/-- A number of seconds. -/
def ofSeconds (s : Nat) : Duration :=
  (make? s 0).getD zero

def isZero (d : Duration) : Bool :=
  d.seconds = 0 ∧ d.nanos = 0

/-- Whole milliseconds, cut off. -/
def millis (d : Duration) : Nat :=
  d.seconds * 1000 + d.nanos / 10 ^ (6 : Nat)

/-- Whether `a` is shorter than `b`. -/
def shorter (a b : Duration) : Bool :=
  a.seconds < b.seconds ∨ (a.seconds = b.seconds ∧ a.nanos < b.nanos)

def shortest (a b : Duration) : Duration :=
  if b.shorter a then b else a

/-- A multiple of a duration; none if it is too long. -/
def times? (d : Duration) (factor : Nat) : Option Duration :=
  make? (d.seconds * factor) (d.nanos * factor)

end Duration

end TaskQueue.Time
