import TaskQueue.Shell.Pattern

/-!
# Fields

What words become when they are filled in is a text with regions in it that may be split into fields.
Blanks among the separators count only between fields; any other separator ends a field.
-/

namespace TaskQueue.Shell

inductive Atom where
  | letter (l : Letter)
  /-- A quotation mark, which makes a field even if it has no letters. -/
  | mark
  /-- The start of a region that may be split; arguments in quotation marks are only split between
  each other. -/
  | begin (betweenArguments : Bool)
  | finish
  deriving DecidableEq, Repr, Inhabited

namespace Atom

/-- What stands between arguments that are split in any case. -/
def separator : Char := '\x00'

def ofChars (quoted : Bool) (cs : List Char) : List Atom :=
  cs.map fun c => .letter ⟨c, quoted⟩

/-- Letters that may be split. -/
def region (atoms : List Atom) : List Atom :=
  .begin false :: atoms ++ [.finish]

def letters (atoms : List Atom) : List Letter :=
  atoms.filterMap fun
    | .letter l => some l
    | _ => none

end Atom

/-- The separators of fields unless there are others. -/
def standardSeparators : List Char :=
  [' ', '\t', '\n']

structure Splitting where
  separators : List Char
  /-- The number of fields, of which the last one takes all that is left. -/
  limit : Option Nat

structure Fields where
  complete : List (List Letter)
  /-- The letters of the last field, newest first. -/
  current : List Letter
  begun : Bool
  inRegion : Bool
  betweenArguments : Bool
  afterArguments : Bool
  afterBlank : Bool
  /-- How many fields may still be ended. -/
  left : Option Nat
  /-- How many of the last letters are only kept if other letters follow. -/
  removable : Option Nat

namespace Fields

def start (s : Splitting) : Fields :=
  ⟨[], [], false, false, false, false, false, s.limit, none⟩

def push (f : Fields) (l : Letter) : Fields :=
  { f with current := l :: f.current, begun := true, removable := f.removable.map (· + 1) }

def cut (f : Fields) : Fields :=
  { f with complete := f.current.reverse :: f.complete, current := [], begun := false }

/-- Takes a letter of a region when only the last field is left. -/
def takeRest (f : Fields) (separates blank : Bool) (l : Letter) : Fields :=
  if blank then { f with removable := some (f.removable.getD 0) }.push l
  else
    let f := if separates ∧ f.afterBlank then f else { f with removable := none }
    { f.push l with afterBlank := false }

def takeLetter (s : Splitting) (f : Fields) (l : Letter) : Fields :=
  let c := l.char
  let separates := c = Atom.separator ∨ (¬f.betweenArguments ∧ s.separators.contains c)
  let blank := separates ∧ (c = Atom.separator ∨ standardSeparators.contains c)
  if f.left = some 0 then f.takeRest separates blank l
  else if f.afterBlank ∧ blank then f
  else if f.afterBlank ∧ separates then { f with afterBlank := false }
  else if separates then
    let after := if f.afterArguments ∨ f.betweenArguments then false else decide blank
    if ¬f.begun ∧ after then f
    else
      let f := { f with afterBlank := after }
      match f.left with
      | some 1 => { f with left := some 0, removable := some 0 }.push l
      | left => { f with left := left.map (· - 1) }.cut
  else { f.push l with afterBlank := false }

def add (s : Splitting) (f : Fields) : Atom → Fields
  | .letter l => if f.inRegion then takeLetter s f l else f.push l
  | .mark => { f with begun := true }
  | .begin betweenArguments =>
    { f with inRegion := true, betweenArguments, afterArguments := f.betweenArguments,
             afterBlank := false }
  | .finish => { f with inRegion := false }

def ofAtoms (s : Splitting) (atoms : List Atom) : List (List Letter) :=
  let f := atoms.foldl (add s) (start s)
  let last := (f.current.drop (f.removable.getD 0)).reverse
  let keeps := f.betweenArguments ∨ if f.removable.isSome then last ≠ [] else f.begun
  (if keeps then last :: f.complete else f.complete).reverse

end Fields

end TaskQueue.Shell
