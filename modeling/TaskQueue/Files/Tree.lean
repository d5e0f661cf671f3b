import TaskQueue.Files.Path

/-!
# Files

The files of a system by their places.  A path is followed name by name: every name but the last
has to be a directory.
-/

namespace TaskQueue.Files

inductive Entry where
  | file (content : Bytes)
  | directory
  /-- A device that is empty and keeps nothing. -/
  | null
  deriving DecidableEq, Repr, Inhabited

inductive PathFlaw where
  | missing
  | notDirectory
  | isDirectory
  | tooLong
  /-- The path has a zero byte in it. -/
  | zero
  | taken
  deriving DecidableEq, Repr, Inhabited

def PathFlaw.message : PathFlaw → String
  | .missing => "No such file or directory"
  | .notDirectory => "Not a directory"
  | .isDirectory => "Is a directory"
  | .tooLong => "File name too long"
  | .zero => "Invalid argument"
  | .taken => "File exists"

/-- The number of bytes that a name may have. -/
def maxName : Nat := 255

/-- The number of bytes that a path has to stay below. -/
def pathBound : Nat := 4096

def systemDirectories : List Place :=
  ["bin", "boot", "dev", "dev/fd", "dev/pts", "dev/shm", "etc", "home", "lib", "media", "mnt",
   "opt", "proc", "proc/self", "root", "run", "sbin", "srv", "sys", "tmp", "usr", "var", "usr/bin",
   "usr/lib", "usr/local", "usr/sbin", "usr/share", "usr/local/bin", "var/log", "var/tmp"].map
    placeOf

/-- The device that is always empty. -/
def nullDevice : Place := placeOf "dev/null"

structure Tree where
  entries : List (Place × Entry)
  deriving DecidableEq, Repr, Inhabited

namespace Tree

/-- The files of a system on which nothing was done yet. -/
def empty : Tree := ⟨[]⟩

/-- The entry at a place; whatever holds another entry is a directory. -/
def find? (t : Tree) (place : Place) : Option Entry :=
  match t.entries.find? fun p => p.1 = place with
  | some p => some p.2
  | none =>
    if place = [] ∨ systemDirectories.contains place ∨
        t.entries.any fun p => place.isPrefixOf p.1 then some .directory
    else if place = nullDevice then some .null
    else none

def isDirectory (t : Tree) (place : Place) : Bool :=
  t.find? place = some .directory

def enter (t : Tree) (place : Place) (name : Name) : Except PathFlaw Place :=
  match t.find? place with
  | none => .error .missing
  | some .directory =>
    if name = [46] then .ok place
    else if name = [46, 46] then .ok place.dropLast
    else if maxName < name.length then .error .tooLong
    else .ok (place ++ [name])
  | some _ => .error .notDirectory

/-- Follows a path from a directory.  What is there need not exist, but the directory that holds it
does. -/
def follow (t : Tree) (directory : Place) (path : Bytes) : Except PathFlaw Place :=
  if path = [] then .error .missing
  else if path.contains 0 then .error .zero
  else if pathBound ≤ path.length then .error .tooLong
  else
    let start := if isAbsolute path then [] else directory
    (((names path).filter (· ≠ [])).foldlM t.enter start).bind fun place =>
      if endsInSlash path ∧ (t.find? place).isSome ∧ ¬t.isDirectory place then
        .error .notDirectory
      else .ok place

def look (t : Tree) (directory : Place) (path : Bytes) : Except PathFlaw (Place × Entry) :=
  (t.follow directory path).bind fun place =>
    match t.find? place with
    | some e => .ok (place, e)
    | none => .error .missing

def read (t : Tree) (directory : Place) (path : Bytes) : Except PathFlaw Bytes :=
  (t.look directory path).bind fun
    | (_, .file content) => .ok content
    | (_, .null) => .ok []
    | (_, .directory) => .error .isDirectory

/-- Whether a path names a file with a content of its own. -/
def isFile (t : Tree) (directory : Place) (path : Bytes) : Bool :=
  match t.look directory path with
  | .ok (_, .file _) => true
  | _ => false

def put (t : Tree) (place : Place) (e : Entry) : Tree :=
  ⟨t.entries.filter (fun p => p.1 ≠ place) ++ [(place, e)]⟩

def remove (t : Tree) (place : Place) : Tree :=
  ⟨t.entries.filter fun p => p.1 ≠ place⟩

def append (t : Tree) (place : Place) (bs : Bytes) : Tree :=
  match t.find? place with
  | some (.file content) => t.put place (.file (content ++ bs))
  | _ => t

/-- The place of a file that is to be written; it is created if there is none, and emptied if
`empties`. -/
def prepare (t : Tree) (directory : Place) (path : Bytes) (empties : Bool) :
    Except PathFlaw (Place × Tree) :=
  (t.follow directory path).bind fun place =>
    match t.find? place with
    | some (.file content) =>
      .ok (place, if empties ∧ content ≠ [] then t.put place (.file []) else t)
    | some .null => .ok (place, t)
    | some .directory => .error .isDirectory
    | none => if endsInSlash path then .error .isDirectory else .ok (place, t.put place (.file []))

/-- The names of what a directory holds, in the order of their bytes. -/
def children (t : Tree) (place : Place) : List Name :=
  let ps := (t.entries.map (·.1)) ++ systemDirectories ++ [nullDevice]
  let found := ps.filterMap fun p =>
    if place.isPrefixOf p then (p.drop place.length).head? else none
  (found.mergeSort fun a b => !decide (b < a)).eraseDups

end Tree

end TaskQueue.Files
