import TaskQueue.Bytes

/-!
# Paths of files

A path is a text of names with slashes between them.  Here is what can be said about a path without
looking at any files.
-/

namespace TaskQueue.Files

/-- The name of a file in its directory: bytes without a slash and without zero. -/
abbrev Name := Bytes

abbrev Place := List Name

def Name.ofString (s : String) : Name :=
  Bytes.ofString s

/-- The names of a path; empty ones stand for several slashes. -/
def names (path : Bytes) : List Name :=
  path.splitOn 47

def isAbsolute (path : Bytes) : Bool :=
  path.head? = some 47

/-- Whether a path has a slash at its end, so that it names a directory. -/
def endsInSlash (path : Bytes) : Bool :=
  path.getLast? = some 47

/-- The place of a path of plain names, from the root. -/
def placeOf (path : String) : Place :=
  (names (Bytes.ofString path)).filter (· ≠ [])

/-- The last name of a path, unless it is `..`. -/
def fileName? (path : String) : Option (List Char) :=
  match ((path.toList.splitOn '/').filter fun name => name ≠ [] ∧ name ≠ ['.']).getLast? with
  | some ['.', '.'] => none
  | name => name

/-- What follows the last point of the file name, if something stands before it. -/
def extension? (path : String) : Option String :=
  (fileName? path).bind fun name =>
    let tail := name.reverse.takeWhile (· ≠ '.')
    if tail.length + 1 < name.length then some (String.ofList tail.reverse) else none

/-- A path followed from another one: an absolute path stands for itself. -/
def join (path next : String) : String :=
  if next.toList.head? = some '/' then next
  else if path.toList.getLast? = some '/' then path ++ next
  else path ++ "/" ++ next

end TaskQueue.Files
