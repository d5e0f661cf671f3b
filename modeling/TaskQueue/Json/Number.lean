import TaskQueue.Decimal.Magnitude
import TaskQueue.Decimal.Shortest

/-!
# JSON numbers

A number is a natural number below `2 ^ 64`, a negative integer not below `-2 ^ 63`, or a finite
binary64 number.  `Numeral.read?` accepts exactly the numerals of the JSON grammar,
`Numeral.number?` gives the number of one, and `Number.chars` writes a number in the fewest digits.
-/

namespace TaskQueue.Json

open Decimal (Magnitude splitDigits)

inductive Number where
  | natural (n : Nat)
  /-- The integer `-n`. -/
  | negative (n : Nat)
  /-- A binary64 number by its bit pattern. -/
  | real (bits : UInt64)
  deriving DecidableEq, Repr, Inhabited

/-- A numeral taken apart; `exponent` holds whether its sign is a minus, and its digits. -/
structure Numeral where
  negative : Bool
  whole : List Char
  fraction : Option (List Char)
  exponent : Option (Bool × List Char)
  deriving DecidableEq, Repr

namespace Numeral

/-- Whether a minus sign comes first, and the rest. -/
def readSign : List Char → Bool × List Char
  | '-' :: rest => (true, rest)
  | cs => (false, cs)

/-- Digits without a leading zero. -/
def readWhole (cs : List Char) : Option (List Char × List Char) :=
  match splitDigits cs with
  | ([], _) => none
  | ('0' :: _ :: _, _) => none
  | split => some split

/-- A point with digits, if there is a point. -/
def readFraction : List Char → Option (Option (List Char) × List Char)
  | '.' :: rest =>
    match splitDigits rest with
    | ([], _) => none
    | (digits, rest) => some (some digits, rest)
  | cs => some (none, cs)

def readExponentDigits (minus : Bool) (cs : List Char) :
    Option (Option (Bool × List Char) × List Char) :=
  match splitDigits cs with
  | ([], _) => none
  | (digits, rest) => some (some (minus, digits), rest)

/-- An exponent, if there is one. -/
def readExponent : List Char → Option (Option (Bool × List Char) × List Char)
  | c :: rest =>
    if c = 'e' ∨ c = 'E' then
      match rest with
      | '+' :: rest => readExponentDigits false rest
      | '-' :: rest => readExponentDigits true rest
      | rest => readExponentDigits false rest
    else some (none, c :: rest)
  | [] => some (none, [])

/-- Reads a whole text as a numeral: a sign, an integer without leading zeros, then a fraction and
an exponent if present. -/
def read? (cs : List Char) : Option Numeral := do
  let (negative, cs) := readSign cs
  let (whole, cs) ← readWhole cs
  let (fraction, cs) ← readFraction cs
  let (exponent, cs) ← readExponent cs
  if cs.isEmpty then some { negative, whole, fraction, exponent } else none

/-- Appends digits to a 64-bit significand up to the first one that no longer fits, and returns
the digits left over. -/
def accumulate (significand : Nat) : List Char → Nat × List Char
  | [] => (significand, [])
  | c :: cs =>
    let next := 10 * significand + Decimal.digitValue c
    if next < 2 ^ (64 : Nat) then accumulate next cs else (significand, c :: cs)

/-- The power `10 ^ n`, correctly rounded. -/
def power? (n : Nat) : Option Magnitude :=
  Magnitude.ofFraction? (10 ^ n) 1

/-- Divides by `10 ^ n` in steps of at most `10 ^ 308`. -/
def divide? (a : Magnitude) (n : Nat) : Option Magnitude :=
  if n ≤ 308 then (power? n).bind a.over?
  else if a.mantissa = 0 then some a
  else ((power? 308).bind a.over?).bind fun b => divide? b (n - 308)
termination_by n

/-- The binary64 number nearest to `significand`, scaled by `10 ^ exponent`; none beyond the finite
range. -/
def scale? (significand : Nat) (exponent : Int) : Option Magnitude :=
  (Magnitude.ofFraction? significand 1).bind fun a =>
    match exponent with
    | .ofNat n =>
      if 308 < n then (if significand = 0 then some a else none) else (power? n).bind a.times?
    | .negSucc n => divide? a (n + 1)

def real (negative : Bool) (a : Magnitude) : Number :=
  .real (UInt64.ofNat (if negative then 2 ^ (63 : Nat) + a.bits else a.bits))

def maxExponent : Nat := 2 ^ (31 : Nat) - 1

/-- The number of a numeral: an integer if it has neither fraction nor exponent and fits 64 bits,
else the binary64 number nearest to its first digits that fit 64 bits; none if that is infinite.
The negative zero is a binary64 number. -/
def number? (n : Numeral) : Option Number :=
  let (whole, beyond) := accumulate 0 n.whole
  match n.fraction, n.exponent, beyond with
  | none, none, [] =>
    if n.negative then
      if whole = 0 ∨ 2 ^ (63 : Nat) < whole then (Magnitude.ofFraction? whole 1).map (real true)
      else some (.negative whole)
    else some (.natural whole)
  | fraction, exponent, beyond =>
    let fraction := fraction.getD []
    let (significand, unread) := accumulate whole fraction
    let shift : Int := (beyond.length : Int) - ((fraction.length - unread.length : Nat) : Int)
    match exponent with
    | none => (scale? significand shift).map (real n.negative)
    | some (minus, digits) =>
      let e := Decimal.value digits
      if maxExponent < e then
        if significand ≠ 0 ∧ minus = false then none else some (real n.negative .zero)
      else
        (scale? significand (if minus then shift - (e : Int) else shift + (e : Int))).map
          (real n.negative)

end Numeral

namespace Number

def exponentText (n : Int) : List Char :=
  'e' :: (if 0 ≤ n then '+' :: Decimal.text n.toNat else Decimal.signedText n)

/-- How a binary64 number is laid out: its digits with a point when the leading digit stands
between `10 ^ -5` and `10 ^ 15`, else one digit, the others, and an exponent with its sign. -/
def layout (digits : List Char) (exponent : Int) : List Char :=
  let point := (digits.length : Int) + exponent
  if 0 ≤ exponent ∧ point ≤ 16 then
    digits ++ List.replicate exponent.toNat '0' ++ ['.', '0']
  else if 0 < point ∧ point ≤ 16 then
    digits.take point.toNat ++ '.' :: digits.drop point.toNat
  else if -5 < point ∧ point ≤ 0 then
    '0' :: '.' :: List.replicate (-point).toNat '0' ++ digits
  else
    match digits with
    | [d] => d :: exponentText (point - 1)
    | d :: rest => d :: '.' :: rest ++ exponentText (point - 1)
    | [] => []

def chars : Number → List Char
  | .natural n => Decimal.text n
  | .negative n => '-' :: Decimal.text n
  | .real bits =>
    let s := (Decimal.Binary.ofBits bits).shortest
    let body := layout (Decimal.text s.digits) s.exponent
    if 2 ^ (63 : Nat) ≤ bits.toNat then '-' :: body else body

/-- The number that a text stands for. -/
def ofChars? (cs : List Char) : Option Number :=
  (Numeral.read? cs).bind Numeral.number?

/-- Whether the number comes back when its text is read. -/
def Survives (n : Number) : Prop :=
  ofChars? n.chars = some n

instance (n : Number) : Decidable n.Survives :=
  inferInstanceAs (Decidable (_ = _))

/-- The natural number, if it is one below the given bound. -/
def natBelow? (bound : Nat) : Number → Option Nat
  | .natural n => if n < bound then some n else none
  | _ => none

/-- The integer, if it is one of the half-open range. -/
def intIn? (low high : Int) : Number → Option Int
  | .natural n => if low ≤ n ∧ (n : Int) < high then some n else none
  | .negative n => if low ≤ -(n : Int) ∧ -(n : Int) < high then some (-(n : Int)) else none
  | .real _ => none

end Number

end TaskQueue.Json
