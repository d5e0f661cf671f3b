import TaskQueue.Decimal.Binary

/-!
# Decimal places of a number

The digits of a number rounded to a count of places, before or after the point or in all.  A half
goes to the even neighbour.
-/

namespace TaskQueue.Decimal

/-- A number times a power of ten, rounded to an integer. -/
def roundScaled (mantissa : Nat) (exponent power : Int) : Nat :=
  let (n, d) := Quantity.fraction mantissa exponent
  if 0 ≤ power then roundHalfEven (n * 10 ^ power.toNat) d
  else roundHalfEven n (d * 10 ^ (-power).toNat)

/-- The digits before the point and a number of digits after it. -/
def fixedDigits (mantissa : Nat) (exponent : Int) (count : Nat) : List Char × List Char :=
  let n := roundScaled mantissa exponent count
  (text (n / 10 ^ count), places count n)

/-- The power of ten of the first digit of a positive number. -/
def leadingPower (mantissa : Nat) (exponent : Int) : Int :=
  let (n, d) := Quantity.fraction mantissa exponent
  let guess : Int := ((text n).length : Int) - (text d).length
  let reaches : Bool :=
    if 0 ≤ guess then d * 10 ^ guess.toNat ≤ n else d ≤ n * 10 ^ (-guess).toNat
  if reaches then guess else guess - 1

/-- The first digit, a number of digits after it, and the power of ten of the first one. -/
def scientificDigits (mantissa : Nat) (exponent : Int) (count : Nat) :
    Char × List Char × Int :=
  if mantissa = 0 then ('0', List.replicate count '0', 0)
  else
    let power := leadingPower mantissa exponent
    let n := roundScaled mantissa exponent (count - power)
    let (n, power) := if n < 10 ^ (count + 1) then (n, power) else (n / 10, power + 1)
    (digit (n / 10 ^ count), places count n, power)

/-- The text of an exponent: a sign and at least two digits. -/
def exponentDigits (power : Int) : List Char :=
  (if power < 0 then '-' else '+') :: padded 2 power.natAbs

end TaskQueue.Decimal
