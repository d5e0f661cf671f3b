import TaskQueue.Power

/-!
# Decimal digits

Natural numbers as runs of decimal digits: the plain text of a number, its text padded with zeros
to a width, and the number that a run of digits stands for.
-/

namespace TaskQueue.Decimal

/-- The digit that stands for the last decimal place of `n`. -/
def digit (n : Nat) : Char :=
  Char.ofNat (48 + n % 10)

def digitValue (c : Char) : Nat :=
  c.toNat - 48

/-- The decimal text of a number, without leading zeros. -/
def text (n : Nat) : List Char :=
  Nat.toDigits 10 n

/-- The last `width` decimal places of a number, most significant first. -/
def places : Nat → Nat → List Char
  | 0, _ => []
  | width + 1, n => places width (n / 10) ++ [digit n]

/-- The decimal text of a number, with leading zeros up to `width` places; a longer number keeps
all its digits. -/
def padded (width n : Nat) : List Char :=
  if n < 10 ^ width then places width n else text n

def value (digits : List Char) : Nat :=
  digits.foldl (fun n c => 10 * n + digitValue c) 0

/-- The decimal text of an integer, a minus sign before the negative ones. -/
def signedText : Int → List Char
  | .ofNat n => text n
  | .negSucc n => '-' :: text (n + 1)

def splitDigits (cs : List Char) : List Char × List Char :=
  (cs.takeWhile Char.isDigit, cs.dropWhile Char.isDigit)

/-- The number below `bound` that a text of digits stands for; a plus sign may come first. -/
def unsigned? (bound : Nat) (cs : List Char) : Option Nat :=
  let digits :=
    match cs with
    | '+' :: rest => rest
    | cs => cs
  if digits.isEmpty ∨ !digits.all Char.isDigit ∨ bound ≤ value digits then none
  else some (value digits)

@[simp] theorem length_places (width n : Nat) : (places width n).length = width := by
  induction width generalizing n with
  | zero => rfl
  | succ width ih => simp [places, ih]

end TaskQueue.Decimal
