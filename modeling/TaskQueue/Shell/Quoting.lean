/-!
# Quoted texts

Texts are quoted in messages, so that one sees where they end, and for a shell, so that it reads them
back.  Texts have a character for each byte.
-/

namespace TaskQueue.Shell.Quoting

/-- The letter after a backslash by which a control character is written. -/
def controlLetter? (c : Char) : Option Char :=
  match c.toNat with
  | 7 => some 'a'
  | 8 => some 'b'
  | 9 => some 't'
  | 10 => some 'n'
  | 11 => some 'v'
  | 12 => some 'f'
  | 13 => some 'r'
  | _ => none

def isPrintable (c : Char) : Bool :=
  32 ≤ c.toNat ∧ c.toNat < 127

/-- A character that cannot be printed, after a backslash. -/
def escaped (c : Char) : List Char :=
  match controlLetter? c with
  | some l => ['\\', l]
  | none =>
    let n := c.toNat
    ['\\', Nat.digitChar (n / 64 % 8), Nat.digitChar (n / 8 % 8), Nat.digitChar (n % 8)]

def shown (s : String) : String :=
  String.ofList ('\'' :: s.toList.flatMap letter ++ ['\''])
where
  letter (c : Char) : List Char :=
    if c = '\'' ∨ c = '\\' then ['\\', c] else if isPrintable c then [c] else escaped c

/-- The characters that mean something to a shell wherever they stand. -/
def activeCharacters : List Char :=
  " !\"$&()*;<=>?[^\x60|\\'".toList

def needsQuotes (cs : List Char) : Bool :=
  cs = [] || cs = ['\x7b'] || cs = ['\x7d'] ||
    cs.any (fun c => activeCharacters.contains c || !isPrintable c) ||
    cs.head?.any fun c => c = '~' ∨ c = '#'

def fitsDoubleQuotes (cs : List Char) : Bool :=
  cs.contains '\'' && cs.all fun c => isPrintable c && !"!\"$\x60\\".toList.contains c

/-- A text between single quotation marks.  What cannot stand there is written apart, as a quoted
quotation mark or as escapes. -/
def spliced : Bool → List Char → List Char
  | _, [] => ['\'']
  | inEscapes, c :: cs =>
    if isPrintable c then
      let before := if inEscapes then ['\'', '\''] else []
      if c = '\'' then before ++ ['\'', '\\', '\'', '\''] ++ spliced false cs
      else before ++ c :: spliced false cs
    else (if inEscapes then escaped c else ['\'', '$', '\''] ++ escaped c) ++ spliced true cs

def reusable (s : String) : String :=
  let cs := s.toList
  if ¬needsQuotes cs then s
  else if fitsDoubleQuotes cs then "\"" ++ s ++ "\""
  else String.ofList ('\'' :: spliced false cs)

end TaskQueue.Shell.Quoting
