import TaskQueue.Decimal.Binary

/-!
# Finite magnitudes

Finite binary64 numbers without their signs.  Fractions, products and quotients are rounded to the
nearest number, a half to the even one; a result that would be infinite is none.
-/

namespace TaskQueue.Decimal

/-- The magnitude `mantissa * 2 ^ exponent`. -/
structure Magnitude where
  mantissa : Nat
  exponent : Int
  deriving DecidableEq, Repr, Inhabited

namespace Magnitude

def zero : Magnitude :=
  ⟨0, 0⟩

/-- The numerator and the denominator. -/
def fraction (a : Magnitude) : Nat × Nat :=
  Quantity.fraction a.mantissa a.exponent

def ofFraction? (numerator denominator : Nat) : Option Magnitude :=
  match BinaryFormat.double.round false numerator denominator with
  | .finite _ mantissa exponent => some ⟨mantissa, exponent⟩
  | _ => none

def times? (a b : Magnitude) : Option Magnitude :=
  ofFraction? (a.fraction.1 * b.fraction.1) (a.fraction.2 * b.fraction.2)

def over? (a b : Magnitude) : Option Magnitude :=
  ofFraction? (a.fraction.1 * b.fraction.2) (a.fraction.2 * b.fraction.1)

/-- The lower 63 bits of the binary64 pattern. -/
def bits (a : Magnitude) : Nat :=
  if a.mantissa < 2 ^ (52 : Nat) then a.mantissa
  else (a.exponent + 1075).toNat * 2 ^ (52 : Nat) + (a.mantissa - 2 ^ (52 : Nat))

end Magnitude

end TaskQueue.Decimal
