import TaskQueue.Files.Tree
import TaskQueue.Store.Request
import TaskQueue.Store.Saved
import TaskQueue.Store.Target

/-!
# Opening a database

A database is opened before the store in it can be used.  A new file becomes a database when its
table is created, which fails if nothing may be written; a file with other content is no database.

What is opened is a `Table`, whether it is kept in a file or in memory.  For one in a file this is
exact up to a crash: there `Table.crash` drops the rows, which the file would still hold.  A log
counter has to come to the end of its range before that, which the commands do not bring about.
-/

namespace TaskQueue.Store

open Files (Place Tree)

structure Opened where
  table : Table
  writes : Bool
  /-- The file, unless the database is a temporary one, and whether its changes are logged. -/
  home : Option (Place × Bool)
  deriving DecidableEq, Repr, Inhabited

/-- The number of bytes that the path of a database has to stay below. -/
def pathLimit : Nat := 512

/-- How much longer than the name of the file are the names of those beside it. -/
def companionLength : Nat := 8

/-- The place of a path.  Going back drops the last name, whatever there is; but nothing can be
below a file. -/
def placeOf? (t : Tree) (directory : Place) (path : Bytes) : Option Place :=
  let start := if Files.isAbsolute path then [] else directory
  let steps := (Files.names path).filter fun name => name ≠ [] ∧ name ≠ [46]
  (steps.foldlM
    (fun place name =>
      if name = [46, 46] then some place.dropLast
      else
        let next := place ++ [name]
        let parent := t.find? place
        if parent.any (· ≠ .directory) then none
        else if parent.isSome ∧ Files.maxName < name.length then none
        else if pathLimit ≤ (next.flatMap fun n => 47 :: n).length then none
        else some next)
    start).filter (· ≠ [])

namespace Opened

def backend (o : Opened) : Backend :=
  if o.writes then .table o.table else .readOnly o.table

/-- The files that are beside the database as long as it is open. -/
def companions (o : Opened) : List Place :=
  match o.home with
  | some (place, true) =>
    ["-shm", "-wal"].map fun ending =>
      place.dropLast ++ [(place.getLast?.getD []) ++ Bytes.ofString ending]
  | _ => []

def save (o : Opened) (b : Backend) (t : Tree) : Tree :=
  match o.home, b with
  | some (place, logged), .table table => t.put place (.file (Saved.bytes ⟨table, logged⟩))
  | _, _ => t

def fresh (place : Place) (access : Access) : Option Opened :=
  if access.writes ∧ ¬access.immutable then some ⟨.empty, true, some (place, access.shares)⟩
  else none

/-- A database that was there before.  Its log needs locks, unless the file is taken for one that
nobody changes; and a log cannot be started when nothing may be written. -/
def existing (place : Place) (access : Access) (s : Saved) : Option Opened :=
  if access.immutable then some ⟨s.table, false, some (place, false)⟩
  else if s.logged ∧ ¬access.shares then none
  else if access.writes then some ⟨s.table, true, some (place, access.shares)⟩
  else if s.logged then some ⟨s.table, false, some (place, true)⟩
  else none

end Opened

def openFile (t : Tree) (place : Place) (access : Access) : Option Opened × Tree :=
  match t.find? place with
  | some (.file []) => (Opened.fresh place access, t)
  | some (.file content) => ((Saved.ofBytes? content).bind (Opened.existing place access), t)
  | some _ => (none, t)
  | none =>
    let nameLength := (place.getLast?.map List.length).getD 0
    if ¬access.creates ∨ ¬t.isDirectory place.dropLast ∨ Files.maxName < nameLength then (none, t)
    else
      let t := t.put place (.file [])
      (if Files.maxName < nameLength + companionLength then none else Opened.fresh place access, t)

/-- Opens a database; a new file may be left behind even if that fails. -/
def Target.open (target : Target) (t : Tree) (directory : Place) : Option Opened × Tree :=
  match target with
  | .invalid => (none, t)
  | .temporary writes => (if writes then some ⟨.empty, true, none⟩ else none, t)
  | .file path access =>
    match placeOf? t directory path with
    | none => (none, t)
    | some place => openFile t place access

end TaskQueue.Store
