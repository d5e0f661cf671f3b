import TaskQueue.Shell.State

/-!
# Redirections

While a command runs, the numbers of streams may stand for files, for other streams of the shell, or
for documents.  A file is opened when the words of the redirection have been filled in.
-/

namespace TaskQueue.Shell

namespace Action

inductive Direction where
  | file (descriptor : Nat) (use : FileUse) (path : String)
  | copy (descriptor : Nat) (source : Option Nat)
  | text (descriptor : Nat) (content : Word)

def Direction.descriptor : Direction → Nat
  | .file descriptor _ _ => descriptor
  | .copy descriptor _ => descriptor
  | .text descriptor _ => descriptor

def openFile (use : FileUse) (path : String) : Action Nat := do
  let s ← get
  let t := s.outside.files
  let bytes := Bytes.ofLetters path
  let opened (stream : Stream) : Action Nat :=
    modifyGet fun s =>
      let (n, outside) := s.outside.openStream stream
      (n, { s with outside })
  match s.device? path, use with
  | some n, _ => return n
  | none, .read =>
    match t.look s.directory bytes with
    | .ok (_, .null) => opened ⟨.null, true, false⟩
    | .ok (place, _) => opened ⟨.file place 0 false, true, false⟩
    | .error flaw =>
      fail (s!"cannot open {path}: " ++ reason "No such file" flaw)
  | none, use =>
    let empties := use = .write ∨ use = .overwrite
    let spares := use = .write && s.has 'C' && t.isFile s.directory bytes
    let prepared := if spares then .error .taken else t.prepare s.directory bytes empties
    match prepared with
    | .ok (place, t) =>
      set { s with outside := { s.outside with files := t } }
      let reads := use = .readWrite
      if t.find? place = some .null then opened ⟨.null, reads, true⟩
      else opened ⟨.file place 0 (use = .append), reads, true⟩
    | .error flaw =>
      fail (s!"cannot create {path}: " ++ reason "Directory nonexistent" flaw)

where
  /-- The reason in a complaint; if nothing is there, the given one. -/
  reason (absent : String) (flaw : Files.PathFlaw) : String :=
    if flaw = .missing ∨ flaw = .notDirectory then absent else flaw.message

def textOf (path : String) : Action String := do
  return Bytes.letters ((← readAll (← openFile .read path)).getD [])

/-- Carries out a redirection; `fill` fills in a document. -/
def direct (fill : Word → Action String) : Direction → Action Unit
  | .file descriptor use path => do
    let n ← openFile use path
    modify fun s => s.direct descriptor (some n)
  | .copy descriptor none => modify fun s => s.direct descriptor none
  | .copy descriptor (some source) => do
    match (← get).stream? source with
    | some n => modify fun s => s.direct descriptor (some n)
    | none => fail s!"{source}: Bad file descriptor"
  | .text descriptor w => do
    let text ← fill w
    modify fun s =>
      let (n, outside) := s.outside.openBuffer (Bytes.ofLetters text)
      { s with outside }.direct descriptor (some n)

/-- Carries out redirections, and tells whether that was possible. -/
def directAll (fill : Word → Action String) (ds : List Direction) : Action Bool := do
  try
    for d in ds do direct fill d
    return true
  catch stop => if stop = .error then return false else throw stop

/-- The path and the text of a file whose commands are to be run. -/
def sourceText (path : String) : Action (String × String) := do
  let s ← get
  let t := s.outside.files
  let full? : Option String :=
    if path.toList.contains '/' then some path
    else
      (((s.value? "PATH").getD "").splitOn ":").findSome? fun d =>
        let full := if d = "" then path else Files.join d path
        if t.isFile s.directory (Bytes.ofLetters full) then some full else none
  match full? with
  | none => fail (path ++ ": not found")
  | some full => return (full, ← textOf full)

end Action

end TaskQueue.Shell
