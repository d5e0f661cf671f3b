import TaskQueue.Config.Toml.Value
import TaskQueue.Decimal.Range
import TaskQueue.Json.Token
import TaskQueue.Text.Front
import TaskQueue.Time.Calendar

/-!
# The scalars of TOML

Readers of texts, numbers, truth values and times, and of the blanks and comments around them.
-/

namespace TaskQueue.Config.Toml

open Text (Front)
open Text.Front (char digits)

def isGap (c : Char) : Bool :=
  c = ' ' ∨ c = '\t'

def skipGap (cs : List Char) : List Char :=
  cs.dropWhile isGap

/-- Whether a character may stand in a comment. -/
def isPlain (c : Char) : Bool :=
  c = '\t' ∨ (32 ≤ c.toNat ∧ c.toNat ≠ 127)

/-- The end of a line: a line feed, with or without a carriage return. -/
def newline : Front Unit
  | '\n' :: rest => some ((), rest)
  | '\r' :: '\n' :: rest => some ((), rest)
  | _ => none

def skipComment : List Char → List Char
  | '#' :: rest => rest.dropWhile isPlain
  | cs => cs

def lineEnd : Front Unit := fun cs =>
  match skipComment (skipGap cs) with
  | [] => some ((), [])
  | rest => newline rest

/-- Drops gaps, comments and ends of lines, at most `fuel` of them. -/
def skipLines : Nat → List Char → List Char
  | 0, cs => cs
  | fuel + 1, cs =>
    match newline (skipComment (skipGap cs)) with
    | some ((), rest) => skipLines fuel rest
    | none => skipGap cs

def skipAll (cs : List Char) : List Char :=
  skipLines cs.length cs

def word : List Char → Front Unit
  | [], cs => some ((), cs)
  | w :: ws, c :: cs => if c = w then word ws cs else none
  | _ :: _, [] => none

/-- The character of an escape, after the backslash. -/
def escape : Front Char
  | 'u' :: cs => hexadecimal 4 cs
  | 'U' :: cs => hexadecimal 8 cs
  | c :: cs =>
    if c = '"' ∨ c = '\\' then some (c, cs)
    else if c = 'b' then some ('\x08', cs)
    else if c = 'f' then some ('\x0c', cs)
    else if c = 'n' then some ('\n', cs)
    else if c = 'r' then some ('\r', cs)
    else if c = 't' then some ('\t', cs)
    else none
  | [] => none
where
  hexadecimal (count : Nat) : Front Char := fun cs =>
    let run := cs.take count
    if run.length = count then do
      let n ← run.foldlM (fun n c => (Json.hexValue? c).map (16 * n + ·)) 0
      if n < 0xD800 ∨ (0xE000 ≤ n ∧ n < 0x110000) then some (Char.ofNat n, cs.drop count)
      else none
    else none

def quotedTail : Nat → List Char → Front String
  | 0, _, _ => none
  | _ + 1, _, [] => none
  | fuel + 1, read, c :: cs =>
    if c = '"' then some (String.ofList read.reverse, cs)
    else if c = '\\' then do
      let (d, rest) ← escape cs
      quotedTail fuel (d :: read) rest
    else if isPlain c then quotedTail fuel (c :: read) cs
    else none

def literalTail : Front String := fun cs =>
  let run := cs.takeWhile fun c => c ≠ '\'' && isPlain c
  match cs.drop run.length with
  | '\'' :: rest => some (String.ofList run, rest)
  | _ => none

/-- The end of a text over several lines: three quotes, and before them at most two more that
belong to the text. -/
def closing (q : Char) (cs : List Char) : Option (List Char × List Char) :=
  let run := cs.takeWhile (· = q)
  if run.length < 3 then none
  else
    let kept := min (run.length - 3) 2
    some (List.replicate kept q, cs.drop (kept + 3))

def skipBreaks : Nat → List Char → List Char
  | 0, cs => cs
  | fuel + 1, cs =>
    match newline (skipGap cs) with
    | some ((), rest) => skipBreaks fuel rest
    | none => skipGap cs

/-- The inside of a text between triple quotes; `escapes` tells whether it has escapes. -/
def linesTail (q : Char) (escapes : Bool) : Nat → List Char → Front String
  | 0, _, _ => none
  | _ + 1, _, [] => none
  | fuel + 1, read, c :: cs =>
    match newline (c :: cs) with
    | some ((), rest) => linesTail q escapes fuel ('\n' :: read) rest
    | none =>
      if c = q then
        match closing q (c :: cs) with
        | some (kept, rest) => some (String.ofList (read.reverse ++ kept), rest)
        | none => linesTail q escapes fuel (c :: read) cs
      else if c = '\\' ∧ escapes then
        match newline (skipGap cs) with
        | some ((), rest) => linesTail q escapes fuel read (skipBreaks rest.length rest)
        | none =>
          match escape cs with
          | some (d, rest) => linesTail q escapes fuel (d :: read) rest
          | none => none
      else if isPlain c then linesTail q escapes fuel (c :: read) cs
      else none

/-- Drops the end of the line on which the text begins. -/
def skipFirstBreak (cs : List Char) : List Char :=
  match newline cs with
  | some ((), rest) => rest
  | none => cs

def simpleText : Front String
  | '"' :: cs => quotedTail (cs.length + 1) [] cs
  | '\'' :: cs => literalTail cs
  | _ => none

def text : Front String
  | '"' :: '"' :: '"' :: cs =>
    linesTail '"' true (cs.length + 1) [] (skipFirstBreak cs)
  | '\'' :: '\'' :: '\'' :: cs =>
    linesTail '\'' false (cs.length + 1) [] (skipFirstBreak cs)
  | cs => simpleText cs

/-- Whether a character may stand in a bare key. -/
def isBare (c : Char) : Bool :=
  c.isAlphanum ∨ c = '_' ∨ c = '-'

def keyPart : Front String := fun cs =>
  match cs with
  | '"' :: _ => simpleText cs
  | '\'' :: _ => simpleText cs
  | _ =>
    let run := cs.takeWhile isBare
    if run.isEmpty then none else some (String.ofList run, cs.drop run.length)

/-- The parts of a key, points between them. -/
def keyParts : Nat → Front (List String)
  | 0, _ => none
  | fuel + 1, cs => do
    let (first, cs) ← keyPart (skipGap cs)
    match skipGap cs with
    | '.' :: rest =>
      let (more, rest) ← keyParts fuel rest
      some (first :: more, rest)
    | rest => some ([first], rest)

/-- The greatest number of parts of a key, and of arrays and tables inside one another. -/
def maxDepth : Nat := 80

def key : Front (List String) := fun cs => do
  let (parts, rest) ← keyParts (cs.length + 1) cs
  if parts.length < maxDepth then some (parts, rest) else none

/-- A run of digits, single underscores between them. -/
def digitRun (isDigit : Char → Bool) : Nat → Front (List Char)
  | 0, _ => none
  | _ + 1, [] => none
  | fuel + 1, c :: cs =>
    if isDigit c then
      match cs with
      | '_' :: rest => (digitRun isDigit fuel rest).map fun (ds, rest) => (c :: ds, rest)
      | d :: rest =>
        if isDigit d then
          (digitRun isDigit fuel (d :: rest)).map fun (ds, rest) => (c :: ds, rest)
        else some ([c], d :: rest)
      | [] => some ([c], [])
    else none

def decimalRun : Front (List Char) := fun cs =>
  digitRun Char.isDigit (cs.length + 1) cs

/-- A sign; true for a minus. -/
def sign : List Char → Bool × List Char
  | '+' :: cs => (false, cs)
  | '-' :: cs => (true, cs)
  | cs => (false, cs)

/-- The digits of a decimal integer, without leading zeros. -/
def wholeDigits : Front (List Char)
  | '0' :: cs => some (['0'], cs)
  | cs => decimalRun cs

/-- A number of 64 bits. -/
def int64 (n : Int) (rest : List Char) : Option (Value × List Char) :=
  if -2 ^ (63 : Nat) ≤ n ∧ n < 2 ^ (63 : Nat) then some (.integer n, rest) else none

def baseInteger (base : Nat) : Front Value := fun cs => do
  let isDigit := fun c => (Json.hexValue? c).any (· < base)
  let (ds, rest) ← digitRun isDigit (cs.length + 1) cs
  let n := ds.foldl (fun n c => base * n + (Json.hexValue? c).getD 0) 0
  int64 n rest

def integer : Front Value
  | '0' :: 'x' :: cs => baseInteger 16 cs
  | '0' :: 'o' :: cs => baseInteger 8 cs
  | '0' :: 'b' :: cs => baseInteger 2 cs
  | cs => do
    let (minus, cs) := sign cs
    let (ds, rest) ← wholeDigits cs
    let n : Int := Decimal.value ds
    int64 (if minus then -n else n) rest

def exponent : Front Int
  | c :: cs =>
    if c = 'e' ∨ c = 'E' then do
      let (minus, cs) := sign cs
      let (ds, rest) ← decimalRun cs
      let n : Int := Decimal.value ds
      some (if minus then -n else n, rest)
    else none
  | [] => none

def fraction : Front (List Char)
  | '.' :: cs => decimalRun cs
  | _ => none

/-- A number with a fraction or an exponent; a positive one must not be rounded to infinity. -/
def real : Front Value := fun cs => do
  let (minus, cs) := sign cs
  match Front.either (word ['i', 'n', 'f']) (word ['n', 'a', 'n']) cs with
  | some ((), rest) => some (.real, rest)
  | none =>
    let (whole, cs) ← wholeDigits cs
    let (frac, cs) ← Front.optional fraction cs
    let (exp, cs) ← Front.optional exponent cs
    if frac.isNone ∧ exp.isNone then none
    else
      let places := frac.getD []
      let exponent := exp.getD 0 - (places.length : Int)
      if minus ∨ Decimal.roundsToFinite (Decimal.value (whole ++ places)) exponent then
        some (.real, cs)
      else none

def twoDigits (least most : Nat) : Front Nat := fun cs => do
  let (n, rest) ← digits 2 2 cs
  if least ≤ n ∧ n ≤ most then some (n, rest) else none

def date : Front Unit := fun cs => do
  let (year, cs) ← digits 4 4 cs
  let ((), cs) ← char '-' cs
  let (month, cs) ← twoDigits 1 12 cs
  let ((), cs) ← char '-' cs
  let (day, cs) ← twoDigits 1 31 cs
  if day ≤ Time.daysInMonth year month then some ((), cs) else none

def timeOfDay : Front Unit := fun cs => do
  let (_, cs) ← twoDigits 0 23 cs
  let ((), cs) ← char ':' cs
  let (_, cs) ← twoDigits 0 59 cs
  let ((), cs) ← char ':' cs
  let (_, cs) ← twoDigits 0 60 cs
  match cs with
  | '.' :: rest =>
    let run := rest.takeWhile Char.isDigit
    if run.isEmpty then some ((), cs) else some ((), rest.drop run.length)
  | _ => some ((), cs)

def offset : Front Unit
  | c :: cs =>
    if c = 'Z' ∨ c = 'z' then some ((), cs)
    else if c = '+' ∨ c = '-' then do
      let (_, cs) ← twoDigits 0 23 cs
      let ((), cs) ← char ':' cs
      let (_, cs) ← twoDigits 0 59 cs
      some ((), cs)
    else none
  | [] => none

def dayTime : Front Unit
  | c :: cs =>
    if c = 'T' ∨ c = 't' ∨ c = ' ' then do
      let ((), cs) ← timeOfDay cs
      let (_, cs) ← Front.optional offset cs
      some ((), cs)
    else none
  | [] => none

/-- A date, a time of day, or both. -/
def time : Front Value := fun cs =>
  match date cs with
  | some ((), cs) => (Front.optional dayTime cs).map fun (_, rest) => (.time, rest)
  | none => (timeOfDay cs).map fun (_, rest) => (.time, rest)

def bool : Front Value := fun cs =>
  match word ['t', 'r', 'u', 'e'] cs with
  | some ((), rest) => some (.bool true, rest)
  | none => (word ['f', 'a', 'l', 's', 'e'] cs).map fun (_, rest) => (.bool false, rest)

def scalar : Front Value := fun cs =>
  match cs with
  | '"' :: _ => (text cs).map fun (s, rest) => (.text s, rest)
  | '\'' :: _ => (text cs).map fun (s, rest) => (.text s, rest)
  | _ => Front.either time (Front.either real (Front.either integer bool)) cs

end TaskQueue.Config.Toml
