import TaskQueue.Time.Instant
import TaskQueue.Text.Blank
import TaskQueue.Text.Front

/-!
# Reading instants

`strict?` reads the timestamps of RFC 3339.  `lenient?` also allows blanks between the parts, short
numbers, signed years, and offsets written with any number of colons or as the word UTC.
-/

namespace TaskQueue.Time

open Text (isBlank Front)
open Text.Front (char digits)

namespace Reader

def skipBlanks (cs : List Char) : List Char :=
  cs.dropWhile isBlank

def dateTimeSeparator : Front Unit
  | c :: rest => if c = 'T' ∨ c = 't' ∨ c = ' ' then some ((), rest) else none
  | [] => none

/-- A fraction of a second in nanoseconds, if there is one; digits after the ninth are dropped. -/
def fraction : Front Nat
  | '.' :: cs =>
    let run := cs.takeWhile Char.isDigit
    if run.isEmpty then none
    else
      let kept := run.take 9
      some (Decimal.value kept * 10 ^ (9 - kept.length), cs.dropWhile Char.isDigit)
  | cs => some (0, cs)

/-- Hours and minutes of an offset, `separator` between them. -/
def offsetDigits (separator : Front Unit) : Front Nat := fun cs => do
  let (hours, cs) ← digits 2 2 cs
  let ((), cs) ← separator cs
  let (minutes, cs) ← digits 2 2 cs
  if minutes ≤ 59 then some (hours * 3600 + minutes * 60, cs) else none

/-- An offset in seconds east: the letter Z, or hours and minutes after a sign. -/
def offset (separator : Front Unit) : Front Int
  | c :: cs =>
    if c = 'Z' ∨ c = 'z' then some (0, cs)
    else if c = '+' then (offsetDigits separator cs).map fun (n, cs) => ((n : Int), cs)
    else if c = '-' ∨ c = '\u2212' then
      (offsetDigits separator cs).map fun (n, cs) => (-(n : Int), cs)
    else none
  | [] => none

def colonsOrBlanks : Front Unit := fun cs =>
  some ((), cs.dropWhile fun c => c = ':' || isBlank c)

/-- A number of one or two digits, blanks before it. -/
def shortNumber : Front Nat := fun cs =>
  digits 1 2 (skipBlanks cs)

/-- A year of up to four digits, or of any number of digits after a sign; blanks before it. -/
def anyYear : Front Int := fun cs =>
  match skipBlanks cs with
  | '-' :: cs => (digits 1 cs.length cs).map fun (n, cs) => (-(n : Int), cs)
  | '+' :: cs => (digits 1 cs.length cs).map fun (n, cs) => ((n : Int), cs)
  | cs => (digits 1 4 cs).map fun (n, cs) => ((n : Int), cs)

/-- A given character, blanks before it. -/
def spacedChar (c : Char) : Front Unit := fun cs =>
  char c (skipBlanks cs)

/-- The word UTC in any case, or an offset with any number of colons. -/
def anyOffset : Front Int
  | a :: b :: c :: rest =>
    if a.toUpper = 'U' ∧ b.toUpper = 'T' ∧ c.toUpper = 'C' then some (0, rest)
    else offset colonsOrBlanks (a :: b :: c :: rest)
  | cs => offset colonsOrBlanks cs

end Reader

open Reader

/-- The time of a timestamp of RFC 3339, in the zone it is written in. -/
def strict? (s : String) : Option ZonedTime := do
  let (year, cs) ← digits 4 4 s.toList
  let ((), cs) ← char '-' cs
  let (month, cs) ← digits 2 2 cs
  let ((), cs) ← char '-' cs
  let (day, cs) ← digits 2 2 cs
  let ((), cs) ← dateTimeSeparator cs
  let (hour, cs) ← digits 2 2 cs
  let ((), cs) ← char ':' cs
  let (minute, cs) ← digits 2 2 cs
  let ((), cs) ← char ':' cs
  let (second, cs) ← digits 2 2 cs
  let (nanos, cs) ← fraction cs
  let (east, cs) ← offset (char ':') cs
  if cs.isEmpty then zoned? ⟨year, month, day⟩ hour minute second nanos east else none

/-- The time of a timestamp written freely, in the zone it is written in. -/
def lenient? (s : String) : Option ZonedTime := do
  let (year, cs) ← anyYear s.toList
  let ((), cs) ← spacedChar '-' cs
  let (month, cs) ← shortNumber cs
  let ((), cs) ← spacedChar '-' cs
  let (day, cs) ← shortNumber cs
  let ((), cs) ← dateTimeSeparator cs
  let (hour, cs) ← shortNumber cs
  let ((), cs) ← spacedChar ':' cs
  let (minute, cs) ← shortNumber cs
  let ((), cs) ← spacedChar ':' cs
  let (second, cs) ← shortNumber cs
  let (nanos, cs) ← fraction cs
  let (east, cs) ← anyOffset (skipBlanks cs)
  if (skipBlanks cs).isEmpty then zoned? ⟨year, month, day⟩ hour minute second nanos east
  else none

end TaskQueue.Time
