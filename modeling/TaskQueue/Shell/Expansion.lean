import TaskQueue.Shell.Arithmetic
import TaskQueue.Shell.Fields
import TaskQueue.Shell.Paths
import TaskQueue.Shell.State

/-!
# Filling in words

The pieces of a word become letters.  What is filled in without quotation marks may be split into
fields, and fields with patterns in them become the paths that match.
-/

namespace TaskQueue.Shell

structure Purpose where
  /-- Whether it may become several fields. -/
  splits : Bool
  /-- Whether it is the text of a reference, whose own letters may be split, too. -/
  nested : Bool
  /-- Whether a tilde at its start stands for a directory. -/
  tilde : Bool
  /-- Whether tildes within it do, too, as in an assignment. -/
  assigns : Bool

namespace Purpose

def fields : Purpose := ⟨true, false, true, false⟩

def value : Purpose := ⟨false, false, true, false⟩

def assignment : Purpose := ⟨false, false, false, true⟩

def document : Purpose := ⟨false, false, false, false⟩

end Purpose

namespace Expansion

def home? (s : State) (user : String) : Option String :=
  if user = "" then s.value? "HOME"
  else if user = "root" then some "/root"
  else none

/-- Fills in tildes in letters that are not quoted.  Only a tilde at the start, or after a colon or the
first equals sign of an assignment, can stand for a directory, and only if its name ends with these
letters or before. -/
def tildes (s : State) (assigns isLast : Bool) : Nat → Bool → Bool → List Char → List Letter
  | 0, _, _, _ => []
  | _, _, _, [] => []
  | n + 1, starts, seenEquals, c :: rest =>
    let plain : List Letter :=
      let starts := assigns && (c == ':' || (c == '=' && !seenEquals))
      ⟨c, false⟩ :: tildes s assigns isLast n starts (seenEquals || c == '=') rest
    if c = '~' ∧ starts then
      let user := rest.takeWhile fun d => d ≠ '/' ∧ ¬(assigns ∧ d = ':')
      let after := rest.drop user.length
      match if after = [] ∧ ¬isLast then none else home? s (String.ofList user) with
      | some directory =>
        directory.toList.map Letter.ofQuoted ++ tildes s assigns isLast n false seenEquals after
      | none => plain
    else plain

/-- What stands between arguments that are filled in together; none if nothing does. -/
def argumentSeparator (s : State) (each quoted splits : Bool) : Option Char :=
  if each ∧ quoted ∧ splits then some Atom.separator
  else
    match s.value? separatorsName with
    | none => some ' '
    | some v => if splits ∧ ¬quoted then some Atom.separator else v.toList.head?

/-- The value of a parameter; arguments are joined. -/
def parameter? (s : State) (name : String) (quoted splits : Bool) : Option (List Char) :=
  let number (n : Nat) : Option (List Char) := some (toString n).toList
  match name with
  | "?" => number s.status
  | "$" => number s.process
  | "#" => number s.arguments.length
  | "!" => s.background.bind number
  | "-" => some (State.optionLetters.filter (s.has ·))
  | "@" | "*" =>
    let between := (argumentSeparator s (name = "@") quoted splits).toList
    some ((s.arguments.map String.toList).intersperse between).flatten
  | name =>
    match name.toNat? with
    | some 0 => some s.name.toList
    | some (i + 1) => (s.arguments[i]?).map String.toList
    | none => (s.value? name).map String.toList

/-- The atoms of what is filled in: quoted, or a region. -/
def filled (s : State) (name : String) (quoted : Bool) (cs : List Char) : List Atom :=
  if ¬quoted then Atom.region (Atom.ofChars false cs)
  else if name = "@" ∧ s.arguments ≠ [] then
    .begin true :: Atom.ofChars true cs ++ [.finish]
  else Atom.ofChars true cs

/-- A text without the line feeds at its end and without zeros. -/
def trimmedOutput (s : String) : List Char :=
  (s.toList.reverse.dropWhile (· = '\n')).reverse.filter (· ≠ '\x00')

/-- Complains about a parameter without a value. -/
def unsetParameter (name : String) (message : Option String) (alsoEmpty : Bool) : Action α :=
  Action.fail (name ++ ": " ++
    message.getD ("parameter not set" ++ if alsoEmpty then " or null" else ""))

def arithmetic (expression : String) : Action (List Char) := do
  let s ← get
  match Arithmetic.evaluate s.value? s.isReadOnly expression with
  | .ok (n, values) =>
    for (name, value) in values.reverse do Action.assign name value
    return Decimal.signedText n.toInt
  | .error .overflow => throw (.killed 8)
  | .error flaw => Action.fail (flaw.message expression)

def isAllArguments : Word → Bool
  | .parameter "@" .value true :: .mark :: _ => true
  | _ => false

mutual

/-- Fills in a word; `run` runs a script and gives what it prints. -/
def atoms (run : Option Script → Action String) (p : Purpose) : Nat → Word → Action (List Atom)
  | 0, _ => throw .error
  | n + 1, w => pieces run p n p.tilde false false w

/-- Fills in pieces, from the start of a word or not, inside of quotation marks or not, before or after
the first equals sign. -/
def pieces (run : Option Script → Action String) (p : Purpose) :
    Nat → Bool → Bool → Bool → Word → Action (List Atom)
  | 0, _, _, _, _ => throw .error
  | _, _, _, _, [] => return []
  | n + 1, starts, inQuotes, seenEquals, piece :: rest => do
    match piece with
    | .mark =>
      if ¬inQuotes ∧ isAllArguments rest then
        let first ← reference run p n "@" .value true
        return first ++ (← pieces run p n false false seenEquals (rest.drop 2))
      else return .mark :: (← pieces run p n false (!inQuotes) seenEquals rest)
    | .letters cs quoted =>
      let s ← get
      let first :=
        if quoted then Atom.ofChars true cs
        else
          (tildes s p.assigns rest.isEmpty cs.length starts seenEquals cs).map Atom.letter
      let first := if p.nested ∧ ¬quoted then Atom.region first else first
      let seen := seenEquals || (!quoted && cs.contains '=')
      return first ++ (← pieces run p n false inQuotes seen rest)
    | .parameter name usage quoted =>
      let first ← reference run p n name usage quoted
      return first ++ (← pieces run p n false inQuotes seenEquals rest)
    | .output script quoted =>
      let cs := trimmedOutput (← run script)
      let first := filled (← get) "" quoted cs
      return first ++ (← pieces run p n false inQuotes seenEquals rest)
    | .arithmetic expression quoted =>
      let cs := (Atom.letters (← atoms run .document n expression)).map Letter.char
      let cs ← arithmetic (String.ofList cs)
      let first := filled (← get) "" quoted cs
      return first ++ (← pieces run p n false inQuotes seenEquals rest)

def reference (run : Option Script → Action String) (p : Purpose) :
    Nat → String → Usage → Bool → Action (List Atom)
  | 0, _, _, _ => throw .error
  | n + 1, name, usage, quoted => do
    let s ← get
    let value? := parameter? s name quoted p.splits
    let inside : Purpose := { p with nested := true, tilde := true }
    let given (alsoEmpty : Bool) : Option (List Char) :=
      value?.filter fun v => !(alsoEmpty && v.isEmpty)
    let plain (cs? : Option (List Char)) : Action (List Atom) := do
      match cs? with
      | some cs => return filled s name quoted cs
      | none =>
        if s.has 'u' then unsetParameter name none false
        else return filled s name quoted []
    match usage with
    | .unknown => Action.fail "Bad substitution"
    | .value => plain value?
    | .length =>
      match value? with
      | some v => return filled s "" quoted (toString v.length).toList
      | none =>
        if s.has 'u' then unsetParameter name none false
        else return filled s "" quoted ['0']
    | .orElse alsoEmpty word =>
      match given alsoEmpty with
      | some v => return filled s name quoted v
      | none => atoms run inside n word
    | .ifSet alsoEmpty word =>
      match given alsoEmpty with
      | some _ => atoms run inside n word
      | none => return []
    | .assign alsoEmpty word =>
      match given alsoEmpty with
      | some v => return filled s name quoted v
      | none =>
        let v := (Atom.letters (← atoms run .value n word)).map Letter.char
        Action.assign name (String.ofList v)
        let t ← get
        return filled t name quoted ((parameter? t name quoted p.splits).getD [])
    | .require alsoEmpty word =>
      match given alsoEmpty with
      | some v => return filled s name quoted v
      | none =>
        let v := (Atom.letters (← atoms run .value n word)).map Letter.char
        unsetParameter name (if word.isEmpty then none else some (String.ofList v)) alsoEmpty
    | .trim atStart longest pattern =>
      match value? with
      | some v =>
        let ls := Atom.letters (← atoms run .value n pattern)
        return filled s name quoted ((Pattern.ofLetters ls).trim atStart longest v)
      | none => plain none

end

/-- The number of nested pieces that a word may have. -/
def maxDepth : Nat := 2 ^ (40 : Nat)

def text (run : Option Script → Action String) (p : Purpose) (w : Word) : Action String := do
  return String.ofList ((Atom.letters (← atoms run p maxDepth w)).map Letter.char)

def pattern (run : Option Script → Action String) (w : Word) : Action Pattern := do
  return .ofLetters (Atom.letters (← atoms run .value maxDepth w))

def fields (run : Option Script → Action String) (w : Word) : Action (List String) := do
  let as ← atoms run .fields maxDepth w
  let s ← get
  let fs := Fields.ofAtoms ⟨s.separators, none⟩ as
  if s.has 'f' then return fs.map fun ls => String.ofList (Letter.chars ls)
  else return fs.flatMap fun ls => Paths.expand s.outside.files s.directory ls

def allFields (run : Option Script → Action String) (ws : List Word) : Action (List String) := do
  let mut all := []
  for w in ws do all := all ++ (← fields run w)
  return all

end Expansion

end TaskQueue.Shell
