import TaskQueue.Shell.LongOption
import TaskQueue.Shell.State

/-!
# Views of files

The program `cat` shows files one after the other.  It may number their lines, and make visible what
cannot be seen otherwise.
-/

namespace TaskQueue.Shell

structure View where
  numbers : Bool
  /-- Whether only lines that are not empty have numbers. -/
  onlyFull : Bool
  squeezes : Bool
  ends : Bool
  tabs : Bool
  controls : Bool
  deriving DecidableEq, Repr, Inhabited

namespace View

def plain : View := ⟨false, false, false, false, false, false⟩

def set? (v : View) (c : Char) : Option View :=
  match c with
  | 'n' => some { v with numbers := true }
  | 'b' => some { v with numbers := true, onlyFull := true }
  | 's' => some { v with squeezes := true }
  | 'E' => some { v with ends := true }
  | 'T' => some { v with tabs := true }
  | 'v' => some { v with controls := true }
  | 'e' => some { v with ends := true, controls := true }
  | 't' => some { v with tabs := true, controls := true }
  | 'A' => some { v with ends := true, tabs := true, controls := true }
  | 'u' => some v
  | _ => none

def char (v : View) (c : Char) : List Char :=
  let n := c.toNat
  if c = '\t' then if v.tabs then ['^', 'I'] else [c]
  else if ¬v.controls then [c]
  else
    let low (n : Nat) : List Char :=
      if n < 32 then ['^', Char.ofNat (n + 64)]
      else if n = 127 then ['^', '?']
      else [Char.ofNat n]
    if n < 128 then low n else ['M', '-'] ++ low (n - 128)

structure Progress where
  line : Nat
  /-- The number of empty lines just before. -/
  empty : Nat
  begun : Bool
  /-- The letters that have been shown, the last one first. -/
  shown : List Char

def Progress.start : Progress :=
  ⟨0, 0, false, []⟩

namespace Progress

def add (p : Progress) (cs : List Char) : Progress :=
  { p with shown := cs.reverse ++ p.shown }

def number (p : Progress) : Progress :=
  let text := Nat.toDigits 10 (p.line + 1)
  { p.add (List.replicate (6 - text.length) ' ' ++ text ++ ['\t']) with line := p.line + 1 }

def next (v : View) (p : Progress) (c : Char) : Progress :=
  let isEmpty := c = '\n' ∧ ¬p.begun
  if isEmpty ∧ v.squeezes ∧ 1 ≤ p.empty then p
  else
    let p := if v.numbers ∧ ¬p.begun ∧ ¬(v.onlyFull ∧ c = '\n') then p.number else p
    if c = '\n' then
      { p.add (if v.ends then ['$', '\n'] else ['\n']) with
        begun := false, empty := if isEmpty then p.empty + 1 else 0 }
    else { p.add (v.char c) with begun := true, empty := 0 }

end Progress

/-- Shows a text: how it is shown, and what is known after it. -/
def present (v : View) (p : Progress) (s : String) : String × Progress :=
  if v = plain then (s, p)
  else
    let p := s.toList.foldl (Progress.next v) p
    (String.ofList p.shown.reverse, { p with shown := [] })

def longNames : List (String × Char) :=
  [("number-nonblank", 'b'), ("number", 'n'), ("squeeze-blank", 's'), ("show-nonprinting", 'v'),
   ("show-ends", 'E'), ("show-tabs", 'T'), ("show-all", 'A'), ("help", 'u'), ("version", 'u')]

/-- Reads options, which may stand between the paths. -/
def options (v : View) : List String → Except String (View × List String)
  | [] => .ok (v, [])
  | "--" :: rest => .ok (v, rest)
  | a :: rest =>
    match a.toList with
    | '-' :: '-' :: _ =>
      match LongOption.find longNames a with
      | .ok (full, _, some _) => .error ("option '--" ++ full ++ "' doesn't allow an argument")
      | .ok (_, c, none) => options ((v.set? c).getD v) rest
      | .error flaw => .error flaw.message
    | '-' :: c :: cs =>
      (c :: cs).foldlM (fun (v : View) c =>
        match v.set? c with
        | some v => Except.ok v
        | none => .error ("invalid option -- '" ++ c.toString ++ "'")) v |>.bind fun v => options v rest
    | _ => (options v rest).map fun p => (p.1, a :: p.2)

end View

end TaskQueue.Shell
