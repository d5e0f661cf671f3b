import TaskQueue.Power

/-!
# Aligned text

Text cut to a precision and filled with spaces to a width, both counted in characters and below
`2 ^ 16`.
-/

namespace TaskQueue.Text

inductive Alignment where
  | left
  | right
  | center
  deriving DecidableEq, Repr

/-- The spaces before and after a text that is `missing` characters short; a centred text gets the
odd one after it. -/
def Alignment.split : Alignment → Nat → Nat × Nat
  | .left, missing => (0, missing)
  | .right, missing => (missing, 0)
  | .center, missing => (missing / 2, missing - missing / 2)

def aligned (alignment : Alignment) (width : Nat) (s : String) : String :=
  let cs := s.toList
  let (before, after) := alignment.split (width - cs.length)
  String.ofList (List.replicate before ' ' ++ cs ++ List.replicate after ' ')

/-- The first `precision` characters of a text, or all of it. -/
def cut (precision : Option Nat) (s : String) : String :=
  match precision with
  | none => s
  | some n => String.ofList (s.toList.take n)

/-- The first number that is too large for a width or a precision. -/
def measureBound : Nat := 2 ^ (16 : Nat)

/-- The text cut and then filled; none if a measure is too large. -/
def fitted? (alignment : Alignment) (width : Nat) (precision : Option Nat) (s : String) :
    Option String :=
  if width < measureBound ∧ precision.all (· < measureBound) then
    some (aligned alignment width (cut precision s))
  else none

end TaskQueue.Text
