import TaskQueue.Files.Tree

/-!
# Streams

A stream is read from or written to: a buffer between processes, or an open file with the position
in it.  Everything that processes share is here: the files, and the streams by their numbers.
-/

namespace TaskQueue.Shell

open Files (Place Tree)

inductive StreamKind where
  /-- What has been written and not been read, newest first. -/
  | buffer (chunks : List Bytes)
  | file (place : Place) (position : Nat) (appends : Bool)
  /-- A device that is empty and keeps nothing. -/
  | null
  deriving Repr, Inhabited

structure Stream where
  kind : StreamKind
  reads : Bool
  writes : Bool
  deriving Repr, Inhabited

structure Outside where
  files : Tree
  streams : Array Stream
  nextProcess : Nat
  signals : List (Nat × Nat)
  steps : Nat

namespace Outside

def openStream (o : Outside) (s : Stream) : Nat × Outside :=
  (o.streams.size, { o with streams := o.streams.push s })

def openBuffer (o : Outside) (content : Bytes) : Nat × Outside :=
  o.openStream ⟨.buffer [content], true, true⟩

def closeFrom (o : Outside) (n : Nat) : Outside :=
  { o with streams := o.streams.shrink n }

/-- What is left to be read; none if the stream is not to be read. -/
def pending? (o : Outside) (n : Nat) : Option Bytes :=
  match o.streams[n]? with
  | some ⟨kind, true, _⟩ =>
    match kind with
    | .buffer chunks => some chunks.reverse.flatten
    | .file place position _ =>
      match o.files.find? place with
      | some (.file content) => some (content.drop position)
      | _ => none
    | .null => some []
  | _ => none

/-- Passes over a number of bytes. -/
def consume (o : Outside) (n count : Nat) : Outside :=
  match o.streams[n]? with
  | some s =>
    let kind :=
      match s.kind with
      | .buffer chunks => .buffer [chunks.reverse.flatten.drop count]
      | .file place position appends => .file place (position + count) appends
      | .null => .null
    { o with streams := o.streams.setIfInBounds n { s with kind } }
  | none => o

/-- Writes to a stream; none if it is not to be written. -/
def write? (o : Outside) (n : Nat) (bs : Bytes) : Option Outside :=
  match o.streams[n]? with
  | some ⟨kind, reads, true⟩ =>
    match kind with
    | .buffer chunks =>
      some { o with streams := o.streams.setIfInBounds n ⟨.buffer (bs :: chunks), reads, true⟩ }
    | .file place position appends =>
      let content :=
        match o.files.find? place with
        | some (.file content) => content
        | _ => []
      let start := if appends then content.length else position
      let filled := content ++ List.replicate (start - content.length) 0
      let content := filled.take start ++ bs ++ filled.drop (start + bs.length)
      let kind := .file place (start + bs.length) appends
      some
        { o with
          files := o.files.put place (.file content)
          streams := o.streams.setIfInBounds n ⟨kind, reads, true⟩ }
    | .null => some o
  | _ => none

end Outside

end TaskQueue.Shell
