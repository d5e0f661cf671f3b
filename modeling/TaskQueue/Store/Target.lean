import TaskQueue.Power
import TaskQueue.Store.Location

/-!
# What the name of a database means

A name that begins with `file:` has parameters after a question mark, and percent signs in it stand
for other bytes.  Any other name is the path of a file.
-/

namespace TaskQueue.Store

structure Access where
  writes : Bool
  creates : Bool
  /-- Whether the file can have a log of changes beside it, which takes locks. -/
  shares : Bool
  immutable : Bool
  deriving DecidableEq, Repr, Inhabited

inductive Target where
  | temporary (writes : Bool)
  | file (path : Bytes) (access : Access)
  | invalid
  deriving DecidableEq, Repr, Inhabited

def hexDigit? (b : UInt8) : Option UInt8 :=
  if 48 ≤ b ∧ b ≤ 57 then some (b - 48)
  else if 97 ≤ b ∧ b ≤ 102 then some (b - 87)
  else if 65 ≤ b ∧ b ≤ 70 then some (b - 55)
  else none

/-- Replaces percent signs with two digits by the bytes that they stand for, up to a zero byte. -/
def percentDecoded : Bytes → Bytes
  | 37 :: a :: b :: rest =>
    match hexDigit? a, hexDigit? b with
    | some x, some y =>
      let byte := 16 * x + y
      if byte = 0 then [] else byte :: percentDecoded rest
    | _, _ => 37 :: percentDecoded (a :: b :: rest)
  | b :: rest => b :: percentDecoded rest
  | [] => []

/-- The parameters of a name; those without a name of their own do not count. -/
abbrev Parameters := List (Bytes × Bytes)

namespace Parameters

def ofBytes (query : Bytes) : Parameters :=
  (query.splitOn 38).filterMap fun part =>
    let key := part.takeWhile (· ≠ 61)
    let name := percentDecoded key
    if name = [] then none else some (name, percentDecoded (part.drop (key.length + 1)))

def get? (ps : Parameters) (name : String) : Option Bytes :=
  (ps.find? fun p => p.1 = Bytes.ofString name).map Prod.snd

/-- The number of the digits that bytes begin with, in eight bits; one of more than 31 bits counts as
zero. -/
def leadingNumber (bs : Bytes) : Nat :=
  let digits := bs.takeWhile fun b => 48 ≤ b ∧ b ≤ 57
  let n := digits.foldl (fun n b => 10 * n + (b - 48).toNat) 0
  if n < 2 ^ (31 : Nat) then n % 2 ^ (8 : Nat) else 0

/-- Whether a parameter is switched on; words that mean nothing switch nothing on. -/
def isOn (ps : Parameters) (name : String) : Bool :=
  match ps.get? name with
  | none => false
  | some value =>
    if (value.head?.bind hexDigit?).any (· < 10) then leadingNumber value ≠ 0
    else
      let word := value.map fun b => if 65 ≤ b ∧ b ≤ 90 then b + 32 else b
      ["on", "yes", "true"].any fun s => word = Bytes.ofString s

def last? (ps : Parameters) (name : String) : Option Bytes :=
  get? ps.reverse name

end Parameters

/-- What may be done with a database.  A later wish must not go beyond an earlier one. -/
inductive Mode where
  | readOnly
  | readWrite
  | readWriteCreate
  | memory
  deriving DecidableEq, Repr, Inhabited

namespace Mode

def ofName? (bs : Bytes) : Option Mode :=
  [("ro", readOnly), ("rw", readWrite), ("rwc", readWriteCreate), ("memory", memory)].findSome?
    fun (name, mode) => if bs = Bytes.ofString name then some mode else none

def rank : Mode → Nat
  | .readOnly => 0
  | .readWrite => 1
  | .readWriteCreate => 2
  | .memory => 3

/-- The mode after another wish; memory can always be had. -/
def restrict (current : Mode) (wish : Mode) : Option Mode :=
  if wish = .memory ∨ wish.rank ≤ current.rank then some wish else none

end Mode

/-- The systems that a file can be opened with, and whether they share it. -/
def fileSystems : List (String × Bool) :=
  [("unix", true), ("unix-excl", true), ("unix-none", false), ("unix-dotfile", false)]

def memorySystem : String := "memdb"

def cacheModes : List String := ["shared", "private"]

namespace Target

/-- The mode that parameters ask for; none if they contradict each other. -/
def modeOf? (ps : Parameters) : Option Mode :=
  ps.foldlM
    (fun mode (name, value) =>
      if name = Bytes.ofString "mode" then (Mode.ofName? value).bind mode.restrict
      else if name = Bytes.ofString "cache" then
        if cacheModes.any fun s => value = Bytes.ofString s then some mode else none
      else some mode)
    .readWriteCreate

def ofParts (path : Bytes) (ps : Parameters) : Target :=
  let system := (ps.last? "vfs").getD (Bytes.ofString "unix")
  let inMemory := system = Bytes.ofString memorySystem
  match modeOf? ps, fileSystems.find? fun s => system = Bytes.ofString s.1 with
  | none, _ => .invalid
  | some mode, found =>
    if found.isNone ∧ ¬inMemory then .invalid
    else if path = [] ∨ path = Bytes.ofString ":memory:" ∨ mode = .memory ∨ inMemory then
      .temporary (mode ≠ .readOnly)
    else
      .file path
        { writes := mode ≠ .readOnly
          creates := mode = .readWriteCreate
          shares := found.any (·.2) ∧ ¬ps.isOn "nolock"
          immutable := ps.isOn "immutable" }

/-- What may stand before a path with parameters. -/
def uriScheme : Bytes := Bytes.ofString "file:"

/-- What follows the name of the host, which is this one. -/
def afterHost? (rest : Bytes) : Option Bytes :=
  match rest with
  | 47 :: 47 :: rest =>
    let host := rest.takeWhile (· ≠ 47)
    if host = [] ∨ host = Bytes.ofString "localhost" then some (rest.drop host.length) else none
  | rest => some rest

def ofName (name : Bytes) : Target :=
  if name.contains 0 then .invalid
  else if uriScheme.isPrefixOf name then
    match afterHost? (name.drop uriScheme.length) with
    | none => .invalid
    | some rest =>
      let rest := rest.takeWhile (· ≠ 35)
      let path := rest.takeWhile (· ≠ 63)
      ofParts (percentDecoded path) (.ofBytes (rest.drop (path.length + 1)))
  else ofParts name []

end Target

def Location.target (l : Location) : Target :=
  .ofName l.name

end TaskQueue.Store
