/-!
# Patterns

In a pattern a star stands for any text, a question mark for any character, and brackets for one of
some characters.  Quoted letters stand for themselves, and so does a letter after a backslash.
-/

namespace TaskQueue.Shell

/-- A letter of a text, and whether it is quoted. -/
structure Letter where
  char : Char
  quoted : Bool
  deriving DecidableEq, Repr, Inhabited

namespace Letter

/-- A letter that stands for itself. -/
def ofQuoted (c : Char) : Letter :=
  ⟨c, true⟩

def isPlain (l : Letter) (c : Char) : Bool :=
  !l.quoted && l.char == c

def chars (ls : List Letter) : List Char :=
  ls.map Letter.char

end Letter

inductive Members where
  | range (first last : Char)
  | kind (name : String)
  deriving DecidableEq, Repr, Inhabited

inductive PatternItem where
  | letter (c : Char)
  | any
  | many
  | oneOf (inverted : Bool) (members : List Members)
  deriving DecidableEq, Repr, Inhabited

/-- The kinds of characters, of which only those of ASCII are known. -/
def characterKinds : List (String × (Char → Bool)) :=
  [("alnum", Char.isAlphanum), ("alpha", Char.isAlpha), ("blank", fun c => c = ' ' ∨ c = '\t'),
   ("cntrl", fun c => c.toNat < 32 ∨ c.toNat = 127), ("digit", Char.isDigit),
   ("graph", fun c => 33 ≤ c.toNat ∧ c.toNat < 127), ("lower", Char.isLower),
   ("print", fun c => 32 ≤ c.toNat ∧ c.toNat < 127),
   ("punct", fun c => (33 ≤ c.toNat ∧ c.toNat < 127) ∧ ¬c.isAlphanum),
   ("space", fun c => c = ' ' ∨ (9 ≤ c.toNat ∧ c.toNat ≤ 13)), ("upper", Char.isUpper),
   ("xdigit", fun c => c.isDigit ∨ ('a' ≤ c ∧ c ≤ 'f') ∨ ('A' ≤ c ∧ c ≤ 'F'))]

/-- The place of a character in the order in which ranges are understood: bytes with a sign. -/
def rangeOrder (c : Char) : Int :=
  if c.toNat < 128 then c.toNat else c.toNat - 256

namespace Members

def contains (m : Members) (c : Char) : Bool :=
  match m with
  | .range first last => rangeOrder first ≤ rangeOrder c ∧ rangeOrder c ≤ rangeOrder last
  | .kind name => (characterKinds.find? fun p => p.1 = name).any fun p => p.2 c

/-- The kind that is named after an opening bracket, and the rest. -/
def kind? (ls : List Letter) : Option (Members × List Letter) :=
  characterKinds.findSome? fun (name, _) =>
    let text := (":" ++ name ++ ":]").toList
    if (ls.take text.length).map Letter.char = text ∧ (ls.take text.length).all (!·.quoted) then
      some (.kind name, ls.drop text.length)
    else none

/-- The members of brackets up to the closing one, which cannot come first, and the rest. -/
def read? : Nat → Bool → List Letter → Option (List Members × List Letter)
  | 0, _, _ => none
  | _, _, [] => none
  | n + 1, isFirst, l :: rest =>
    if l.isPlain ']' ∧ ¬isFirst then some ([], rest)
    else
      match if l.isPlain '[' then kind? rest else none with
      | some (m, rest) => (read? n false rest).map fun p => (m :: p.1, p.2)
      | none =>
        let (c, rest) : Char × List Letter :=
          match l.isPlain '\\', rest with
          | true, d :: rest => (d.char, rest)
          | _, rest => (l.char, rest)
        let (last, rest) : Char × List Letter :=
          match rest with
          | dash :: d :: after =>
            if dash.isPlain '-' ∧ ¬d.isPlain ']' then
              match d.isPlain '\\', after with
              | true, e :: after => (e.char, after)
              | _, after => (d.char, after)
            else (c, rest)
          | rest => (c, rest)
        (read? n false rest).map fun p => (.range c last :: p.1, p.2)

end Members

abbrev Pattern := List PatternItem

namespace Pattern

/-- Reads at most `n` items of a pattern. -/
def read : Nat → List Letter → Pattern
  | 0, _ => []
  | _, [] => []
  | n + 1, l :: rest =>
    if l.isPlain '*' then .many :: read n rest
    else if l.isPlain '?' then .any :: read n rest
    else if l.isPlain '\\' then
      match rest with
      | d :: rest => .letter d.char :: read n rest
      | [] => [.letter '\\']
    else if l.isPlain '[' then
      let (inverted, members) : Bool × List Letter :=
        match rest with
        | d :: after => if d.isPlain '!' then (true, after) else (false, rest)
        | [] => (false, [])
      match Members.read? members.length true members with
      | some (ms, rest) => .oneOf inverted ms :: read n rest
      | none => .letter '[' :: read n rest
    else .letter l.char :: read n rest

def ofLetters (ls : List Letter) : Pattern :=
  read ls.length ls

/-- A text and what is left of it after each of its characters. -/
def suffixes : List Char → List (List Char)
  | [] => [[]]
  | c :: cs => (c :: cs) :: suffixes cs

def accepts : Pattern → List Char → Bool
  | [], cs => cs.isEmpty
  | .many :: ps, cs => (suffixes cs).any (accepts ps)
  | .any :: ps, _ :: cs => accepts ps cs
  | .letter d :: ps, c :: cs => c == d && accepts ps cs
  | .oneOf inverted ms :: ps, c :: cs => (ms.any fun m => m.contains c) != inverted && accepts ps cs
  | _ :: _, [] => false

/-- Drops the shortest or longest part of a text that matches, at the start or at the end. -/
def trim (p : Pattern) (atStart longest : Bool) (cs : List Char) : List Char :=
  let n := cs.length
  let sizes := List.range (n + 1)
  let sizes := if longest then sizes.reverse else sizes
  let fits (k : Nat) : Bool :=
    if atStart then p.accepts (cs.take k) else p.accepts (cs.drop (n - k))
  match sizes.find? fits with
  | some k => if atStart then cs.drop k else cs.take (n - k)
  | none => cs

/-- Whether letters could match anything but themselves. -/
def isActive (ls : List Letter) : Bool :=
  ls.any fun l => l.isPlain '*' || l.isPlain '?' || l.isPlain '['

end Pattern

end TaskQueue.Shell
