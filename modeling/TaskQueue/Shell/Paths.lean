import TaskQueue.Files.Tree
import TaskQueue.Shell.Pattern

/-!
# Patterns for paths

A word with a pattern in it stands for the paths that match it, name by name.  A point at the start of
a name is only matched by itself.
-/

namespace TaskQueue.Shell.Paths

open Files (Place Tree)

def components (ls : List Letter) : List (List Letter) :=
  ls.splitOnP fun l => l.char == '/'

def named (t : Tree) (directory : Place) (path : String) (pattern : List Letter) : List String :=
  let path := if path = "" then "." else path
  match t.follow directory (Bytes.ofLetters path) with
  | .error _ => []
  | .ok place =>
    if ¬t.isDirectory place then []
    else
      let p := Pattern.ofLetters pattern
      let showsHidden := (pattern.head?.map Letter.char) = some '.'
      let names := [".", ".."] ++ (t.children place).map Bytes.letters
      names.filter fun name =>
        p.accepts name.toList && (showsHidden || name.toList.head? != some '.')

/-- The paths that begin with a text and match the names of a pattern. -/
def matching (t : Tree) (directory : Place) : List (List Letter) → String → List String
  | [], _ => []
  | [last], path =>
    if Pattern.isActive last then (named t directory path last).map (path ++ ·)
    else
      let path := path ++ String.ofList (Letter.chars last)
      match t.look directory (Bytes.ofLetters path) with
      | .ok _ => [path]
      | .error _ => []
  | name :: rest, path =>
    if Pattern.isActive name then
      (named t directory path name).flatMap fun s => matching t directory rest (path ++ s ++ "/")
    else matching t directory rest (path ++ String.ofList (Letter.chars name) ++ "/")

/-- The paths that a word stands for, in the order of their bytes; the word itself if there are
none. -/
def expand (t : Tree) (directory : Place) (word : List Letter) : List String :=
  let itself := String.ofList (Letter.chars word)
  if ¬Pattern.isActive word then [itself]
  else
    match matching t directory (components word) "" with
    | [] => [itself]
    | paths => paths.mergeSort fun a b => a ≤ b

end TaskQueue.Shell.Paths
