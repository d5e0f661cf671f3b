import TaskQueue.Shell.Process

/-!
# Lines of a stream

A stream is read line by line.  A line ends with a line feed, before which a carriage return is
dropped, or with the stream; reading stops for good at a line that is not UTF-8.
-/

namespace TaskQueue.Shell

/-- Splits bytes after their line feeds; only the last part may lack one. -/
def chunks : Bytes → List Bytes
  | [] => []
  | b :: rest =>
    if b = 10 then [b] :: chunks rest
    else
      match chunks rest with
      | [] => [[b]]
      | chunk :: more => (b :: chunk) :: more

/-- A line without its end. -/
def stripEnd (line : Bytes) : Bytes :=
  match line.reverse with
  | 10 :: 13 :: rest => rest.reverse
  | 10 :: rest => rest.reverse
  | _ => line

def decode? (line : Bytes) : Option String :=
  Bytes.text? line

def untilNone : List (Option String) → List String
  | some s :: rest => s :: untilNone rest
  | _ => []

def linesOf (stream : Bytes) : List String :=
  untilNone ((chunks stream).map fun line => decode? (stripEnd line))

/-- The lines of a process; those of the second stream follow. -/
def Finished.lines (p : Finished) : List String :=
  linesOf p.out ++ linesOf p.err

/-- Splits a list into parts of at most `size` members. -/
def batchesOf (size : Nat) (lines : List α) : List (List α) :=
  go lines.length lines
where
  go : Nat → List α → List (List α)
    | 0, _ => []
    | _, [] => []
    | n + 1, xs => xs.take size :: go n (xs.drop size)

end TaskQueue.Shell
