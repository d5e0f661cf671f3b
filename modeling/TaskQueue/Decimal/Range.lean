import TaskQueue.Decimal.Digits

/-!
# The range of binary fractions

A decimal from `2 ^ 1024 - 2 ^ 970` on is nearer to `2 ^ 1024` than to any finite binary64 number,
or as near; every smaller one is rounded to a finite number.
-/

namespace TaskQueue.Decimal

/-- The least number that is not rounded to a finite binary64 number. -/
def leastInfinite : Nat :=
  2 ^ (1024 : Nat) - 2 ^ (970 : Nat)

/-- Whether `digits * 10 ^ exponent` is rounded to a finite binary64 number; `leastInfinite` has 309
digits. -/
def roundsToFinite (digits : Nat) (exponent : Int) : Bool :=
  let places := ((text digits).length : Int) + exponent
  if digits = 0 ∨ places < 309 then true
  else if 309 < places then false
  else digits * 10 ^ exponent.toNat < leastInfinite * 10 ^ (-exponent).toNat

end TaskQueue.Decimal
