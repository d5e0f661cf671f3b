import TaskQueue.Shell.Builtin
import TaskQueue.Shell.Direction

/-!
# How a shell is called

The arguments of a shell set its options.  The script is one of them, stands in a file, or comes from
the input.
-/

namespace TaskQueue.Shell

namespace Action

/-- What a shell is called with: its options are set, and the script and its name are given. -/
structure Called where
  script : String
  name : String
  arguments : List String

/-- Reads the options of a shell: whether the script is one of the arguments, and those arguments. -/
def readCall : Nat → Bool → List String → Action (Bool × List String)
  | 0, takes, rest => return (takes, rest)
  | n + 1, takes, arguments => do
    let set (value : Bool) (cs : List Char) (rest : List String) : Action (Bool × List String) := do
      let left := cs.filter fun c => c ≠ 'c' ∧ c ≠ 'l'
      readCall n (takes || cs.contains 'c') (← Builtin.setLetters value left rest)
    match arguments with
    | [] => return (takes, [])
    | a :: rest =>
      match a.toList with
      | ['-'] => return (takes, rest)
      | ['-', '-'] => return (takes, rest)
      | '-' :: cs => set true cs rest
      | '+' :: cs => set false cs rest
      | _ => return (takes, arguments)

def called (arguments : List String) : Action Called := do
  setLine 0
  let size := arguments.foldl (fun n a => n + a.length + 1) 1
  let (takes, rest) ← readCall size false arguments
  let s ← get
  if takes then
    match rest with
    | [] => fail "-c requires an argument"
    | script :: rest => return ⟨script, rest.headD s.name, rest.drop 1⟩
  else
    match rest with
    | path :: more =>
      if s.has 's' then return ⟨← input, s.name, rest⟩
      else return ⟨← textOf path, path, more⟩
    | [] => return ⟨← input, s.name, []⟩
where
  input : Action String := do
    match (← get).stream? 0 with
    | none => return ""
    | some n => return Bytes.letters ((← readAll n).getD [])

end Action

end TaskQueue.Shell
