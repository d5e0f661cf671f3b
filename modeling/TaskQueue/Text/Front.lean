import TaskQueue.Decimal.Digits

/-!
# The front of a text

A `Front α` reads something at the front of a text and returns the rest.
-/

namespace TaskQueue.Text

abbrev Front (α : Type) := List Char → Option (α × List Char)

namespace Front

def char (c : Char) : Front Unit
  | d :: rest => if d = c then some ((), rest) else none
  | [] => none

/-- At least `least` and at most `most` digits, as a number. -/
def digits (least most : Nat) : Front Nat := fun cs =>
  let run := (cs.take most).takeWhile Char.isDigit
  if run.length < least then none else some (Decimal.value run, cs.drop run.length)

def either (p q : Front α) : Front α := fun cs =>
  match p cs with
  | some r => some r
  | none => q cs

/-- What a reader finds, if it finds anything. -/
def optional (p : Front α) : Front (Option α) := fun cs =>
  match p cs with
  | some (a, rest) => some (some a, rest)
  | none => some (none, cs)

end Front

end TaskQueue.Text
