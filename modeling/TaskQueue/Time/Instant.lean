import TaskQueue.Power
import TaskQueue.Time.Calendar

/-!
# Instants

A point in time is a whole second since 1970-01-01T00:00:00Z and the nanoseconds after it.  In a
leap second the count of nanoseconds goes on past `10 ^ 9`, so instants order by second first and
then by nanosecond.
-/

namespace TaskQueue.Time

structure Instant where
  /-- Seconds since 1970-01-01T00:00:00Z, leap seconds not counted. -/
  seconds : Int
  nanos : Nat
  deriving DecidableEq, Repr, Inhabited

namespace Instant

/-- Whether `a` comes before `b`. -/
def before (a b : Instant) : Bool :=
  a.seconds < b.seconds ∨ (a.seconds = b.seconds ∧ a.nanos < b.nanos)

def truncated (t : Instant) : Instant :=
  { t with nanos := t.nanos / 1000 * 1000 }

def nextMicrosecond (t : Instant) : Instant :=
  if t.nanos + 1000 < 10 ^ (9 : Nat) then { t with nanos := t.nanos + 1000 }
  else ⟨t.seconds + 1, t.nanos + 1000 - 10 ^ (9 : Nat)⟩

def date (t : Instant) : Date :=
  Date.ofDayNumber (t.seconds / 86400)

def secondOfDay (t : Instant) : Nat :=
  (t.seconds % 86400).toNat

end Instant

def firstYear : Int := -262143

def lastYear : Int := 262142

/-- An instant as a clock of some zone shows it; the offset is in seconds east. -/
structure ZonedTime where
  instant : Instant
  offset : Int
  deriving DecidableEq, Repr, Inhabited

def ZonedTime.hour (t : ZonedTime) : Nat :=
  ((t.instant.seconds + t.offset) % 86400).toNat / 3600

/-- The instant of a date and a time of day in a zone; second 60 is the leap second after second
59.  None if the date does not exist or the year is out of range. -/
def zoned? (date : Date) (hour minute second nanos : Nat) (offset : Int) : Option ZonedTime :=
  if date.isValid ∧ firstYear ≤ date.year ∧ date.year ≤ lastYear ∧ hour ≤ 23 ∧ minute ≤ 59 ∧
      second ≤ 60 ∧ -86400 < offset ∧ offset < 86400 then
    let leap := second = 60
    let ofDay : Nat := hour * 3600 + minute * 60 + (if leap then 59 else second)
    let instant : Instant :=
      ⟨date.dayNumber * 86400 + (ofDay : Int) - offset,
        if leap then nanos + 10 ^ (9 : Nat) else nanos⟩
    let year := instant.date.year
    if firstYear ≤ year ∧ year ≤ lastYear then some ⟨instant, offset⟩ else none
  else none

end TaskQueue.Time
