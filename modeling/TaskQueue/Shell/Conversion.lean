import TaskQueue.Decimal.Scientific

/-!
# Conversions of a format

A conversion turns an argument into text: in a least width, with a sign or a mark of its base, and
with a number of places.
-/

namespace TaskQueue.Shell

open Decimal (Quantity)

structure Conversion where
  flags : List Char
  width : Nat
  precision : Option Nat
  letter : Char
  deriving DecidableEq, Repr, Inhabited

namespace Conversion

def has (c : Conversion) (flag : Char) : Bool :=
  c.flags.contains flag

/-- A text in the width of the conversion; zeros may fill it up after the sign. -/
def padded (c : Conversion) (zeros : Bool) (sign body : List Char) : List Char :=
  let missing := c.width - (sign.length + body.length)
  if c.has '-' then sign ++ body ++ List.replicate missing ' '
  else if zeros ∧ c.has '0' then sign ++ List.replicate missing '0' ++ body
  else List.replicate missing ' ' ++ sign ++ body

/-- A text, of which only as many characters are taken as the precision says. -/
def text (c : Conversion) (cs : List Char) : List Char :=
  c.padded false [] (c.precision.elim cs cs.take)

def character (c : Conversion) (d : Char) : List Char :=
  c.padded false [] [d]

def isUpper (c : Conversion) : Bool :=
  c.letter.isUpper

def inCase (c : Conversion) (cs : List Char) : List Char :=
  if c.isUpper then cs.map Char.toUpper else cs

/-- The sign of a number that may be positive. -/
def sign (c : Conversion) (negative : Bool) : List Char :=
  if negative then ['-'] else if c.has '+' then ['+'] else if c.has ' ' then [' '] else []

/-- Digits with zeros up to the precision; a zero without any precision is left out. -/
def filled (c : Conversion) (ds : List Char) : List Char :=
  match c.precision with
  | none => ds
  | some n => if n = 0 ∧ ds = ['0'] then [] else List.replicate (n - ds.length) '0' ++ ds

/-- An integer, of 64 bits if it has no sign. -/
def integer (c : Conversion) (n : Int) : List Char :=
  if c.letter = 'd' ∨ c.letter = 'i' then
    c.padded c.precision.isNone (c.sign (n < 0)) (c.filled (Nat.toDigits 10 n.natAbs))
  else
    let n := (n % 2 ^ (64 : Nat)).toNat
    let base := if c.letter = 'o' then 8 else if c.letter = 'u' then 10 else 16
    let ds := c.filled (c.inCase (Nat.toDigits base n))
    let mark :=
      if c.has '#' ∧ base = 16 ∧ n ≠ 0 then ['0', c.letter] else []
    let ds := if c.has '#' ∧ base = 8 ∧ ds.head? ≠ some '0' then '0' :: ds else ds
    c.padded c.precision.isNone mark ds

/-- Digits after a point; the point is only written if there are some, or if it always is. -/
def point (c : Conversion) (ds : List Char) : List Char :=
  if ds = [] ∧ ¬c.has '#' then [] else '.' :: ds

/-- Digits without the zeros at their end, unless they are always written. -/
def stripped (c : Conversion) (ds : List Char) : List Char :=
  if c.has '#' then ds else (ds.reverse.dropWhile (· = '0')).reverse

def fixed (c : Conversion) (count m : Nat) (e : Int) : List Char :=
  let (whole, places) := Decimal.fixedDigits m e count
  whole ++ c.point places

def scientific (c : Conversion) (count m : Nat) (e : Int) : List Char :=
  let (first, places, power) := Decimal.scientificDigits m e count
  (first :: c.point places) ++ ('e' :: Decimal.exponentDigits power)

/-- The shorter one of both ways, for a number of digits in all. -/
def general (c : Conversion) (count m : Nat) (e : Int) : List Char :=
  let count := max count 1
  let (first, places, power) := Decimal.scientificDigits m e (count - 1)
  if -4 ≤ power ∧ power < count then
    let (whole, places) := Decimal.fixedDigits m e (count - 1 - power).toNat
    whole ++ c.point (c.stripped places)
  else (first :: c.point (c.stripped places)) ++ ('e' :: Decimal.exponentDigits power)

/-- The digits of a mantissa in base 16 and the power of two behind them.  The first digit has one bit,
or four if all mantissas are `whole`. -/
def hexadecimal (c : Conversion) (whole : Bool) (m : Nat) (e : Int) : List Char :=
  let lead := if whole then 4 else 1
  let bits := if whole then 64 else 53
  let shift : Nat := bits - 1 - m.log2
  let (m, e) := if m = 0 then (0, (0 : Int)) else (m * 2 ^ shift, e - shift)
  let places := (bits - lead) / 4
  let (m, count) :=
    match c.precision with
    | some n =>
      if n < places then (Decimal.roundHalfEven m (16 ^ (places - n)), n)
      else (m * 16 ^ (n - places), n)
    | none => (m, places)
  let first := m / 16 ^ count
  let ds := (List.range count).map fun i => Nat.digitChar (m / 16 ^ (count - 1 - i) % 16)
  let ds := if c.precision.isSome then ds else (ds.reverse.dropWhile (· = '0')).reverse
  let power : Int := if m = 0 then 0 else e + 4 * (places : Int)
  Nat.toDigits 16 first ++ c.point ds ++
    ('p' :: (if power < 0 then '-' else '+') :: Nat.toDigits 10 power.natAbs)

def real (c : Conversion) (whole : Bool) (q : Quantity) : List Char :=
  let sign := c.sign q.isNegative
  match q with
  | .infinite _ => c.padded false sign (c.inCase ['i', 'n', 'f'])
  | .unknown _ => c.padded false sign (c.inCase ['n', 'a', 'n'])
  | .finite _ m e =>
    let count := c.precision.getD 6
    match c.letter.toLower with
    | 'f' => c.padded true sign (c.fixed count m e)
    | 'e' => c.padded true sign (c.inCase (c.scientific count m e))
    | 'g' => c.padded true sign (c.inCase (c.general count m e))
    | _ =>
      c.padded true (sign ++ c.inCase ['0', 'x']) (c.inCase (c.hexadecimal whole m e))

end Conversion

end TaskQueue.Shell
