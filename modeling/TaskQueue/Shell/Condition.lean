import TaskQueue.Shell.Arithmetic

/-!
# Conditions

The arguments of `test` are a condition: about a text, about two texts or numbers, or about a file.
Conditions can be joined, negated and put in brackets.
-/

namespace TaskQueue.Shell

inductive OperatorKind where
  | unary
  | binary
  | negation
  | both
  | either
  | opening
  | closing
  deriving DecidableEq, Repr, Inhabited

structure Inspection where
  /-- Whether a question about a path is to be answered with yes. -/
  file : (operator path : String) → Bool
  /-- Whether a question about two paths is to be answered with yes. -/
  files : (operator first second : String) → Bool

inductive ConditionFlaw where
  | missingBracket
  | illegalNumber (s : String)
  | unexpectedOperator (s : String)
  | argumentExpected (s : String)
  | closingExpected
  deriving DecidableEq, Repr, Inhabited

def ConditionFlaw.message : ConditionFlaw → String
  | .missingBracket => "missing ]"
  | .illegalNumber s => "Illegal number: " ++ s
  | .unexpectedOperator s => (if s = "" then "" else s ++ ": ") ++ "unexpected operator"
  | .argumentExpected s => s ++ ": argument expected"
  | .closingExpected => "closing paren expected"

namespace Condition

/-- What kind of operator a text is, if it is one. -/
def kind? (s : String) : Option OperatorKind :=
  if s ∈ ["-r", "-w", "-x", "-e", "-f", "-d", "-c", "-b", "-p", "-u", "-g", "-k", "-s", "-t", "-z",
      "-n", "-h", "-O", "-G", "-L", "-S"] then some .unary
  else if s ∈ ["=", "!=", "<", ">", "-eq", "-ne", "-ge", "-gt", "-le", "-lt", "-nt", "-ot",
      "-ef"] then some .binary
  else
    match s with
    | "!" => some .negation
    | "-a" => some .both
    | "-o" => some .either
    | "(" => some .opening
    | ")" => some .closing
    | _ => none

/-- Whether texts begin with an operator, which the ends of lists may prevent. -/
def operator? : List String → Option OperatorKind
  | [] => none
  | s :: rest =>
    match kind? s with
    | some .unary => if isOperand rest then none else some .unary
    | some .opening => if rest = [] then none else some .opening
    | k => k
where
  /-- Whether what stands before these texts is no unary operator. -/
  isOperand : List String → Bool
    | [] => true
    | [_] => false
    | s :: _ => kind? s = some .binary

abbrev Step (α : Type) := EStateM ConditionFlaw (List String) α

/-- The 64-bit integer that a text is; blanks may surround it. -/
def number? (s : String) : Option Int :=
  let cs := s.toList.dropWhile Arithmetic.isSpace
  let negative : Bool := cs.head? = some '-'
  let (ds, rest) := Decimal.splitDigits (if negative ∨ cs.head? = some '+' then cs.drop 1 else cs)
  let n : Int := if negative then -(Decimal.value ds : Int) else Decimal.value ds
  if ds = [] ∨ ¬rest.all Arithmetic.isSpace ∨ n < -(2 ^ (63 : Nat)) ∨ 2 ^ (63 : Nat) ≤ n then none
  else some n

def number (s : String) : Step Int :=
  match number? s with
  | some n => pure n
  | none => throw (.illegalNumber s)

/-- The place of a text in the order of its bytes. -/
def isBefore (a b : String) : Bool :=
  decide (a.toList.map Char.toNat < b.toList.map Char.toNat)

def compare (i : Inspection) (a operator b : String) : Step Bool := do
  match operator with
  | "=" => return a = b
  | "!=" => return a ≠ b
  | "<" => return isBefore a b
  | ">" => return isBefore b a
  | "-nt" | "-ot" | "-ef" => return i.files operator a b
  | _ =>
    let x ← number a
    let y ← number b
    match operator with
    | "-eq" => return x = y
    | "-ne" => return x ≠ y
    | "-ge" => return y ≤ x
    | "-gt" => return y < x
    | "-le" => return x ≤ y
    | _ => return x < y

def skip : Step Unit :=
  modify (·.drop 1)

/-- The first text, the empty one if there is none. -/
def first : Step String := do
  return (← get).headD ""

mutual

/-- Evaluates conditions of which one has to hold.  The last text of the condition stays. -/
def disjunction (i : Inspection) : Nat → Step Bool
  | 0 => pure false
  | n + 1 => do
    let a ← conjunction i n
    if operator? ((← get).drop 1) = some .either then
      skip
      skip
      let b ← disjunction i n
      return a || b
    else return a

/-- Evaluates conditions of which all have to hold. -/
def conjunction (i : Inspection) : Nat → Step Bool
  | 0 => pure false
  | n + 1 => do
    let a ← negation i n
    if operator? ((← get).drop 1) = some .both then
      skip
      skip
      let b ← conjunction i n
      return a && b
    else return a

def negation (i : Inspection) : Nat → Step Bool
  | 0 => pure false
  | n + 1 => do
    if operator? (← get) = some .negation then
      unless (← get).length ≤ 1 do skip
      if (← get).length ≤ 1 ∧ (← first) = "!" then return true
      return !(← negation i n)
    else primary i n

def primary (i : Inspection) : Nat → Step Bool
  | 0 => pure false
  | n + 1 => do
    let texts ← get
    match operator? texts, texts with
    | _, [] => return false
    | some .opening, _ :: rest =>
      set rest
      if operator? rest = some .closing then return false
      let a ← disjunction i n
      skip
      unless operator? (← get) = some .closing do throw .closingExpected
      return a
    | some .unary, operator :: rest =>
      set rest
      match rest with
      | [] => throw (.argumentExpected operator)
      | s :: _ =>
        if operator = "-z" then return s = ""
        else if operator = "-n" then return s ≠ ""
        else if operator = "-t" then
          let _ ← number s
          return false
        else return i.file operator s
    | _, s :: rest =>
      if operator? rest = some .binary then
        let operator := rest.headD ""
        match rest.drop 1 with
        | [] => throw (.argumentExpected operator)
        | t :: more =>
          set (t :: more)
          compare i s operator t
      else return s ≠ ""

end

def evaluate (i : Inspection) : Nat → List String → Except ConditionFlaw Bool
  | _, [] => .ok false
  | 0, _ => .ok false
  | n + 1, texts =>
    let rest := texts.drop 1
    let bracketed : Bool := texts.head? = some "(" ∧ texts.getLast? = some ")"
    let isComparison : Bool := (rest.head?.bind kind?) = some .binary
    if texts.length = 3 ∧ isComparison then
      run (compare i (texts.headD "") (rest.headD "") (rest.getLastD "")) []
    else if texts.length = 3 ∨ texts.length = 4 then
      if bracketed then runAll rest.dropLast
      else if texts.head? = some "!" then (evaluate i n rest).map (!·)
      else runAll texts
    else runAll texts
where
  runAll (texts : List String) : Except ConditionFlaw Bool :=
    run (disjunction i (4 * texts.length + 8)) texts
  run (f : Step Bool) (texts : List String) : Except ConditionFlaw Bool :=
    match f texts with
    | .error flaw _ => .error flaw
    | .ok a left =>
      match left with
      | s :: _ :: _ => .error (.unexpectedOperator s)
      | _ => .ok a

end Condition

end TaskQueue.Shell
