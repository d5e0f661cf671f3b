import TaskQueue.Shell.Quoting

/-!
# Escapes

A backslash and what follows it stand for a byte.  The escapes in a format differ from those in an
argument, and those that a shell knows from those that a program knows.
-/

namespace TaskQueue.Shell

/-- What an escape stands for. -/
inductive Escape where
  | chars (cs : List Char)
  | stop
  | malformed (message : String)

namespace Escape

def simple? : Char → Option Nat
  | 'a' => some 7
  | 'b' => some 8
  | 'e' => some 27
  | 'f' => some 12
  | 'n' => some 10
  | 'r' => some 13
  | 't' => some 9
  | 'v' => some 11
  | '\\' => some 92
  | _ => none

def isOctal (c : Char) : Bool :=
  '0' ≤ c ∧ c ≤ '7'

def hexValue? (c : Char) : Option Nat :=
  if c.isDigit then some (c.toNat - '0'.toNat)
  else if 'a' ≤ c ∧ c ≤ 'f' then some (c.toNat - 'a'.toNat + 10)
  else if 'A' ≤ c ∧ c ≤ 'F' then some (c.toNat - 'A'.toNat + 10)
  else none

def byte (n : Nat) : Escape :=
  .chars [Char.ofNat (n % 256)]

/-- The byte of at most three octal digits at the beginning of a text, and the rest. -/
def octal (cs : List Char) : Escape × List Char :=
  let ds := (cs.take 3).takeWhile isOctal
  (byte (ds.foldl (fun n c => 8 * n + (c.toNat - '0'.toNat)) 0), cs.drop ds.length)

/-- The number of at most `limit` hexadecimal digits, how many there are, and the rest. -/
def hexadecimal (limit : Nat) (cs : List Char) : Nat × Nat × List Char :=
  let ds := (cs.take limit).takeWhile fun c => (hexValue? c).isSome
  (ds.foldl (fun n c => 16 * n + (hexValue? c).getD 0) 0, ds.length, cs.drop ds.length)

/-- The escape of the shell after a backslash in a format, and the rest. -/
def inFormat (cs : List Char) : Escape × List Char :=
  match cs with
  | [] => (.chars ['\\'], [])
  | c :: rest =>
    match simple? c with
    | some n => (byte n, rest)
    | none => if isOctal c then octal cs else (.chars ['\\'], cs)

/-- The escape of the shell after a backslash in an argument: an octal number may begin with a zero
that does not count, and `c` ends the output. -/
def inArgument (cs : List Char) : Escape × List Char :=
  match cs with
  | 'c' :: rest => (.stop, rest)
  | '0' :: d :: rest => if isOctal d then octal (d :: rest) else inFormat cs
  | cs => inFormat cs

/-- The message about an escape without its digits. -/
def missingDigits : Escape :=
  .malformed "missing hexadecimal number in escape"

/-- The escape for a character of a wider set, written with `size` digits; those that have no byte of
their own stay escapes. -/
def wideCharacter (letter : Char) (size : Nat) (cs : List Char) : Escape × List Char :=
  let (n, count, rest) := hexadecimal size cs
  let digits (upper : Bool) (size : Nat) : List Char :=
    let ds := Nat.toDigits 16 n
    List.replicate (size - ds.length) '0' ++ if upper then ds.map Char.toUpper else ds
  if count < size then (missingDigits, rest)
  else if 0xd800 ≤ n ∧ n ≤ 0xdfff then
    (.malformed ("invalid universal character name \\" ++ letter.toString ++
      String.ofList (digits false size)), rest)
  else if n < 0x80 then (byte n, rest)
  else if n < 0x10000 then (.chars ('\\' :: 'u' :: digits true 4), rest)
  else (.chars ('\\' :: 'U' :: digits true 8), rest)

/-- The escape of the program after a backslash, in a format or in an argument. -/
def ofProgram (inArgument : Bool) (cs : List Char) : Escape × List Char :=
  match cs with
  | [] => (.chars ['\\'], [])
  | 'c' :: rest => (.stop, rest)
  | '"' :: rest => (.chars ['"'], rest)
  | 'x' :: rest =>
    let (n, count, rest) := hexadecimal 2 rest
    if count = 0 then (missingDigits, rest) else (byte n, rest)
  | 'u' :: rest => wideCharacter 'u' 4 rest
  | 'U' :: rest => wideCharacter 'U' 8 rest
  | c :: rest =>
    match simple? c with
    | some n => (byte n, rest)
    | none =>
      if isOctal c then octal (if inArgument ∧ c = '0' then rest else cs)
      else (.chars ['\\', c], rest)

/-- The escape of the program `echo` after a backslash. -/
def ofEcho (cs : List Char) : Escape × List Char :=
  match cs with
  | [] => (.chars ['\\'], [])
  | 'c' :: rest => (.stop, rest)
  | 'x' :: rest =>
    let (n, count, after) := hexadecimal 2 rest
    if count = 0 then (.chars ['\\', 'x'], rest) else (byte n, after)
  | '0' :: rest => octal rest
  | c :: rest =>
    match simple? c with
    | some n => (byte n, rest)
    | none => if isOctal c then octal cs else (.chars ['\\', c], rest)

/-- Replaces the escapes in at most `n` characters, up to one that ends the output or makes no sense,
which is given, too. -/
def replaceAll (read : List Char → Escape × List Char) : Nat → List Char → List Char × Option Escape
  | 0, _ => ([], none)
  | _, [] => ([], none)
  | n + 1, '\\' :: rest =>
    match read rest with
    | (.chars cs, rest) =>
      let (more, e) := replaceAll read n rest
      (cs ++ more, e)
    | (e, _) => ([], some e)
  | n + 1, c :: rest =>
    let (more, e) := replaceAll read n rest
    (c :: more, e)

end Escape

end TaskQueue.Shell
