import TaskQueue.Time.Instant
import TaskQueue.Decimal.Digits

/-!
# Written instants

Instants are written in UTC, either with exactly six fraction digits (`Instant.stamp`, whose
alphabetical order is the order of time in the years 0 to 9999) or with as few of 0, 3, 6 and 9
digits as lose nothing (`Instant.text`), or to the second (`Instant.plain`).
-/

namespace TaskQueue.Time

open Decimal (padded places)

/-- A year: four digits, and outside of 0 to 9999 a sign as well. -/
def yearChars : Int → List Char
  | .ofNat n => if n < 10000 then places 4 n else '+' :: padded 4 n
  | .negSucc n => '-' :: padded 4 (n + 1)

def dateChars (d : Date) : List Char :=
  yearChars d.year ++ '-' :: places 2 d.month ++ '-' :: places 2 d.day

def clockChars (hour minute second : Nat) : List Char :=
  places 2 hour ++ ':' :: places 2 minute ++ ':' :: places 2 second

namespace Instant

/-- The time of day of an instant; a leap second is second 60. -/
def clock (t : Instant) : List Char :=
  let s := t.secondOfDay
  clockChars (s / 3600) (s / 60 % 60) (s % 60 + t.nanos / 10 ^ (9 : Nat))

def fraction (t : Instant) : Nat :=
  t.nanos % 10 ^ (9 : Nat)

def stampChars (t : Instant) : List Char :=
  dateChars t.date ++ 'T' :: t.clock ++ '.' :: places 6 (t.fraction / 1000) ++ ['Z']

/-- The instant with exactly six fraction digits, cut off. -/
def stamp (t : Instant) : String :=
  String.ofList t.stampChars

/-- A fraction in 0, 3, 6 or 9 digits, with its point. -/
def shortFraction (nanos : Nat) : List Char :=
  if nanos = 0 then []
  else if nanos % 10 ^ (6 : Nat) = 0 then '.' :: places 3 (nanos / 10 ^ (6 : Nat))
  else if nanos % 10 ^ (3 : Nat) = 0 then '.' :: places 6 (nanos / 10 ^ (3 : Nat))
  else '.' :: places 9 nanos

def text (t : Instant) : String :=
  String.ofList (dateChars t.date ++ 'T' :: t.clock ++ shortFraction t.fraction ++ ['Z'])

/-- The instant to the second, without a zone. -/
def plain (t : Instant) : String :=
  String.ofList (dateChars t.date ++ ' ' :: t.clock)

end Instant

end TaskQueue.Time
