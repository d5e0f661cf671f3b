import TaskQueue.Decimal.Digits

/-!
# The shortest decimal of a binary fraction

A finite binary64 number is `mantissa * 2 ^ exponent`, and every real of its rounding interval
reads back as it.  `Binary.shortest` finds the least number of digits for which a decimal of the
interval exists, and of those decimals the nearest one.  All arithmetic is on natural numbers.
-/

namespace TaskQueue.Decimal

/-- The magnitude `mantissa * 2 ^ exponent` of a finite binary64 number. -/
structure Binary where
  mantissa : Nat
  exponent : Int
  /-- Whether the next smaller number is only half as far away as the next larger one. -/
  narrowBelow : Bool
  deriving DecidableEq, Repr

/-- The magnitude held in the lower 63 bits of a binary64 pattern. -/
def Binary.ofBits (bits : UInt64) : Binary :=
  let fraction := bits.toNat % 2 ^ (52 : Nat)
  let biased : Nat := bits.toNat / 2 ^ (52 : Nat) % 2 ^ (11 : Nat)
  if biased = 0 then ⟨fraction, -1074, false⟩
  else ⟨2 ^ (52 : Nat) + fraction, (biased : Int) - 1075, fraction = 0 ∧ 1 < biased⟩

/-- The rounding interval of a number, in quarters of the unit in the last place over a common
denominator. -/
structure Interval where
  low : Nat
  middle : Nat
  high : Nat
  denominator : Nat
  closed : Bool

/-- All reals nearer to the number than to its neighbours; the ends belong to it if the mantissa
is even. -/
def Binary.interval (b : Binary) : Interval :=
  let up := 2 ^ (b.exponent - 2).toNat
  let below := if b.narrowBelow then 1 else 2
  { low := (4 * b.mantissa - below) * up
    middle := 4 * b.mantissa * up
    high := (4 * b.mantissa + 2) * up
    denominator := 2 ^ (2 - b.exponent).toNat
    closed := b.mantissa % 2 = 0 }

/-- A decimal `digits * 10 ^ exponent`. -/
structure Scaled where
  digits : Nat
  exponent : Int
  deriving DecidableEq, Repr

/-- Whether `d * 10 ^ k` lies in the interval. -/
def Interval.holds (i : Interval) (d : Nat) (k : Int) : Bool :=
  let point := d * 10 ^ k.toNat * i.denominator
  let unit := 10 ^ (-k).toNat
  if i.closed then i.low * unit ≤ point ∧ point ≤ i.high * unit
  else i.low * unit < point ∧ point < i.high * unit

/-- The place of the leading digit: the greatest `e` with `10 ^ e` not above the number. -/
def Interval.leading (i : Interval) : Int :=
  ((text (i.middle * 10 ^ (400 : Nat) / i.denominator)).length : Int) - 401

/-- The nearest decimal of the interval that is a multiple of `10 ^ k`, if one of the two
neighbours of the number on that grid lies in it; on a tie the even one. -/
def Interval.onGrid (i : Interval) (k : Int) : Option Scaled :=
  let num := i.middle * 10 ^ (-k).toNat
  let den := i.denominator * 10 ^ k.toNat
  let d := num / den
  let lower := i.holds d k
  let upper := i.holds (d + 1) k
  let twice := 2 * (num % den)
  let pickUpper := den < twice ∨ (twice = den ∧ d % 2 = 1)
  if lower ∧ upper then some ⟨if pickUpper then d + 1 else d, k⟩
  else if lower then some ⟨d, k⟩
  else if upper then some ⟨d + 1, k⟩
  else none

/-- The first grid with a decimal of the interval, trying at most `fuel` grids from `10 ^ k`
downwards. -/
def Interval.firstGrid (i : Interval) : Nat → Int → Scaled
  | 0, k => ⟨i.middle / i.denominator, k⟩
  | fuel + 1, k =>
    match i.onGrid k with
    | some s => s
    | none => i.firstGrid fuel (k - 1)

def Scaled.trimmed (s : Scaled) : Scaled :=
  go 20 s
where
  go : Nat → Scaled → Scaled
    | 0, s => s
    | fuel + 1, s =>
      if s.digits % 10 = 0 ∧ s.digits ≠ 0 then go fuel ⟨s.digits / 10, s.exponent + 1⟩ else s

/-- The nearest of the shortest decimals that read back as the number; zero is `0`. -/
def Binary.shortest (b : Binary) : Scaled :=
  if b.mantissa = 0 then ⟨0, 0⟩
  else (b.interval.firstGrid 18 b.interval.leading).trimmed

end TaskQueue.Decimal
