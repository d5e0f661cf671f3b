import TaskQueue.Shell.Conversion
import TaskQueue.Shell.LongOption
import TaskQueue.Shell.Process
import TaskQueue.Shell.Quoting

/-!
# Sequences of numbers

The program `seq` writes the numbers from a first to a last one in equal steps.  Unless a format is
given, they have as many decimal places as the first number and the step are written with.
-/

namespace TaskQueue.Shell.Sequence

open Decimal (BinaryFormat Quantity)

inductive Flaw where
  | missingOperand
  | extraOperand (s : String)
  | notNumber (s : String)
  | unknownNumber (s : String)
  | zeroStep (s : String)
  | unknownLetter (c : Char)
  | option (flaw : LongOptionFlaw)
  | missingArgument (c : Char)
  | missingLongArgument (name : String)
  | needlessArgument (name : String)
  | formatAndWidth
  /-- The format is wrong for the given reason. -/
  | format (s reason : String)

def Flaw.message : Flaw → String
  | .missingOperand => "missing operand"
  | .extraOperand s => "extra operand " ++ Quoting.shown s
  | .notNumber s => "invalid floating point argument: " ++ Quoting.shown s
  | .unknownNumber s => "invalid 'not-a-number' argument: " ++ Quoting.shown s
  | .zeroStep s => "invalid Zero increment value: " ++ Quoting.shown s
  | .unknownLetter c => "invalid option -- '" ++ c.toString ++ "'"
  | .option flaw => flaw.message
  | .missingArgument c => "option requires an argument -- '" ++ c.toString ++ "'"
  | .missingLongArgument name => "option '--" ++ name ++ "' requires an argument"
  | .needlessArgument name => "option '--" ++ name ++ "' doesn't allow an argument"
  | .formatAndWidth =>
    "format string may not be specified when printing equal width strings"
  | .format s reason => "format " ++ Quoting.shown s ++ " " ++ reason

def Flaw.isShort : Flaw → Bool
  | .format _ _ => true
  | _ => false

structure Options where
  format : Option String
  separator : String
  equalWidth : Bool

/-- The long options, and whether they have an argument. -/
def longOptions : List (String × Bool) :=
  [("equal-width", false), ("format", true), ("separator", true), ("help", false),
   ("version", false)]

def Options.set (o : Options) (name : Char) (value : String) : Options :=
  match name with
  | 'f' => { o with format := some value }
  | 's' => { o with separator := value }
  | _ => { o with equalWidth := true }

/-- Reads letters of options; the last one may take the next argument. -/
def letters (o : Options) : List Char → List String → Except Flaw (Options × List String)
  | [], rest => .ok (o, rest)
  | c :: cs, rest =>
    if c = 'w' then letters (o.set 'w' "") cs rest
    else if c = 'f' ∨ c = 's' then
      match cs, rest with
      | [], [] => .error (.missingArgument c)
      | [], value :: rest => .ok (o.set c value, rest)
      | cs, rest => .ok (o.set c (String.ofList cs), rest)
    else .error (.unknownLetter c)

/-- Reads a long option, which may be shortened. -/
def long (o : Options) (text : String) (rest : List String) :
    Except Flaw (Options × List String) :=
  match LongOption.find longOptions text with
  | .error flaw => .error (.option flaw)
  | .ok (full, takes, value?) =>
    let letter := if full = "equal-width" then 'w' else (full.toList.head?).getD 'w'
    match takes, value?, rest with
    | false, none, _ => .ok (o.set letter "", rest)
    | false, some _, _ => .error (.needlessArgument full)
    | true, some value, _ => .ok (o.set letter value, rest)
    | true, none, value :: rest => .ok (o.set letter value, rest)
    | true, none, [] => .error (.missingLongArgument full)

/-- Reads the options before the numbers, of which a negative one is no option. -/
def options : Nat → Options → List String → Except Flaw (Options × List String)
  | n + 1, o, a :: rest =>
    match a.toList with
    | '-' :: c :: cs =>
      if c = '.' ∨ c.isDigit then .ok (o, a :: rest)
      else if a = "--" then .ok (o, rest)
      else
        let read := if c = '-' then long o a rest else letters o (c :: cs) rest
        read.bind fun (o, rest) => options n o rest
    | _ => .ok (o, a :: rest)
  | _, o, arguments => .ok (o, arguments)

structure Operand where
  value : Quantity
  /-- The number of characters that it takes without a format. -/
  width : Int
  /-- The number of decimal places; none if they are not known. -/
  places : Option Nat

/-- What is known of a number that is no exponent and has no base. -/
def Operand.ofText (s : String) : Except Flaw Operand :=
  match BinaryFormat.extended.read? s.toList with
  | some (q, inRange, []) =>
    match q, inRange with
    | .unknown _, _ => .error (.unknownNumber s)
    | .infinite _, false => .error (.notNumber s)
    | _, _ => .ok (measured q)
  | _ => .error (.notNumber s)
where
  measured (q : Quantity) : Operand :=
    let cs := s.toList.dropWhile fun c => c = ' ' ∨ c = '+' ∨ (9 ≤ c.toNat ∧ c.toNat ≤ 13)
    let hasPoint := cs.contains '.'
    let places : Option Nat := if ¬hasPoint ∧ ¬cs.contains 'p' then some 0 else none
    let isFinite : Bool :=
      match q with
      | .finite _ _ _ => true
      | _ => false
    if cs.any (fun c => c = 'x' ∨ c = 'X') ∨ ¬isFinite then ⟨q, 0, places⟩
    else
      let before := cs.takeWhile (· ≠ '.')
      let fraction := (cs.drop (before.length + 1)).takeWhile fun c => c ≠ 'e' ∧ c ≠ 'E'
      let places := if hasPoint then some fraction.length else places
      let bare := (before.getLast?.map Char.isDigit).getD false
      let width : Int := cs.length +
        (if ¬hasPoint then 0 else if fraction = [] then -1 else if bare then 0 else 1)
      let mantissa := cs.takeWhile fun c => c ≠ 'e' ∧ c ≠ 'E'
      if mantissa.length = cs.length then ⟨q, width, places⟩
      else
        let (power, _) := BinaryFormat.exponent 'e' (cs.drop mantissa.length)
        let shift := power.natAbs
        let places := places.map fun p => if power < 0 then p + shift else p - shift
        let width := width - ((cs.length - mantissa.length : Nat) : Int)
        let width :=
          if power < 0 ∧ (¬hasPoint ∨ fraction = []) then width + 1 else width
        ⟨q, width + shift, places⟩

/-- The number one, which is the first one and the step unless others are given. -/
def Operand.one : Operand :=
  ⟨.finite false 1 0, 1, some 0⟩

/-- The way the numbers are written: what stands before and after each of them. -/
structure Layout where
  before : String
  conversion : Conversion
  after : String

def Layout.text (l : Layout) (q : Quantity) : String :=
  l.before ++ String.ofList (l.conversion.real true q) ++ l.after

/-- A format without conversions up to the first percent sign that begins one, with the rest. -/
def literal : Nat → List Char → List Char × Option (List Char)
  | n + 1, '%' :: '%' :: rest =>
    let (cs, rest) := literal n rest
    ('%' :: cs, rest)
  | _, '%' :: rest => ([], some rest)
  | n + 1, c :: rest =>
    let (cs, rest) := literal n rest
    (c :: cs, rest)
  | _, _ => ([], none)

def Layout.ofFormat (s : String) : Except Flaw Layout :=
  let n := s.length + 1
  match literal n s.toList with
  | (_, none) => .error (.format s "has no % directive")
  | (before, some rest) =>
    let flags := rest.takeWhile (· ∈ ['-', '+', '#', '0', ' ', '\''])
    let (width, rest) := Decimal.splitDigits (rest.drop flags.length)
    let (precision, rest) : Option Nat × List Char :=
      match rest with
      | '.' :: rest =>
        let (ds, rest) := Decimal.splitDigits rest
        (some (Decimal.value ds), rest)
      | rest => (none, rest)
    let rest := if rest.head? = some 'L' then rest.drop 1 else rest
    match rest with
    | [] => .error (.format s "ends in %")
    | l :: rest =>
      if l ∉ ['e', 'f', 'g', 'a', 'E', 'F', 'G', 'A'] then
        .error (.format s ("has unknown %" ++ l.toString ++ " directive"))
      else
        match literal n rest with
        | (after, none) =>
          .ok ⟨String.ofList before, ⟨flags, Decimal.value width, precision, l⟩,
            String.ofList after⟩
        | _ => .error (.format s "has too many % directives")

/-- The layout unless there is a format. -/
def Layout.standard (first step last : Operand) (equalWidth : Bool) : Layout :=
  match first.places, step.places, last.places with
  | some p, some q, some r =>
    let places := max p q
    if equalWidth then
      let firstWidth := first.width + ((places - p : Nat) : Int) + point p places
      let lastWidth := last.width + ((places : Int) - r) +
        (if r ≠ 0 ∧ places = 0 then -1 else point r places)
      ⟨"", ⟨['0'], (max firstWidth lastWidth).toNat, some places, 'f'⟩, ""⟩
    else ⟨"", ⟨[], 0, some places, 'f'⟩, ""⟩
  | _, _, _ => ⟨"", ⟨[], 0, none, 'g'⟩, ""⟩
where
  point (before after : Nat) : Int :=
    if before = 0 ∧ after ≠ 0 then 1 else 0

def isBeyond (step last x : Quantity) : Bool :=
  if step.isLess (.finite false 0 0) then x.isLess last else last.isLess x

/-- The number that a text without its surroundings is. -/
def readBack (l : Layout) (text : String) : Option Quantity :=
  let cs := (text.toList.drop l.before.length).take
    (text.length - l.before.length - l.after.length)
  match BinaryFormat.extended.read? cs with
  | some (q, _, []) => some q
  | _ => none

/-- The texts of the numbers from the `i`-th one on, at most `n` of them.  A number just behind the
last one counts if its text is that of the last one. -/
def texts (l : Layout) (first step last : Quantity) : Nat → Nat → List String
  | 0, _ => []
  | n + 1, i =>
    let x := if i = 0 then first
      else BinaryFormat.extended.add first (BinaryFormat.extended.scale i step)
    let text := l.text x
    if isBeyond step last x then
      let before := l.text
        (BinaryFormat.extended.add first (BinaryFormat.extended.scale (i - 1) step))
      if i ≠ 0 ∧ (readBack l text).any (·.isSame last) ∧ before ≠ text then [text] else []
    else text :: texts l first step last n (i + 1)

/-- The number of lines after which no more are written. -/
def maxLines : Nat := 2 ^ (20 : Nat)

def isDigits (s : String) : Bool :=
  s ≠ "" && s.toList.all Char.isDigit

/-- The texts of integers, which can have any length. -/
def integerTexts (first step last : Nat) : List String :=
  if last < first then []
  else (List.range (min ((last - first) / step + 1) maxLines)).map fun i => toString (first + step * i)

/-- The lines that arguments ask for, and what stands between them. -/
def lines (arguments : List String) : Except Flaw (List String × String) := do
  let (o, numbers) ← options arguments.length ⟨none, "\n", false⟩ arguments
  if numbers = [] then throw .missingOperand
  match numbers.drop 3 with
  | s :: _ => throw (.extraOperand s)
  | [] => pure ()
  let layout? ← o.format.mapM Layout.ofFormat
  if layout?.isSome ∧ o.equalWidth then throw .formatAndWidth
  let small (s : String) : Bool :=
    let n := Decimal.value s.toList
    0 < n ∧ n ≤ 200
  let plain := o.format.isNone ∧ ¬o.equalWidth ∧ o.separator.length = 1
  let values := numbers.map fun s => Decimal.value s.toList
  match plain && numbers.all isDigits, numbers, values with
  | true, [_], [b] => return (integerTexts 1 1 b, o.separator)
  | true, [_, _], [a, b] => return (integerTexts a 1 b, o.separator)
  | true, [_, s, _], [a, k, b] =>
    if small s then return (integerTexts a k b, o.separator)
    general o layout? numbers
  | _, _, _ => general o layout? numbers
where
  general (o : Options) (layout? : Option Layout) (numbers : List String) :
      Except Flaw (List String × String) := do
    let (first, step, last) ← match numbers with
      | [b] => do pure (.one, .one, ← Operand.ofText b)
      | [a, b] => do pure (← Operand.ofText a, .one, ← Operand.ofText b)
      | a :: k :: rest => do
        let first ← Operand.ofText a
        let step ← Operand.ofText k
        if step.value.isSame (.finite false 0 0) then throw (.zeroStep k)
        pure (first, step, ← Operand.ofText (rest.headD ""))
      | [] => throw .missingOperand
    let l := layout?.getD (.standard first step last o.equalWidth)
    return (texts l first.value step.value last.value maxLines 0, o.separator)

def run (name : String) (arguments : List String) : Report :=
  match lines arguments with
  | .ok (ls, separator) =>
    if ls = [] then .ofCode 0 else .ofText (separator.intercalate ls ++ "\n")
  | .error flaw =>
    let hint := if flaw.isShort then "" else "\nTry '" ++ name ++ " --help' for more information."
    .complain 1 (flaw.message ++ hint)

end TaskQueue.Shell.Sequence
