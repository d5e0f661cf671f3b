import TaskQueue.Shell.Source

/-!
# Reading words

A word ends at a blank or at an operator.  Inside of quotation marks nothing ends it, and inside of a
reference with braces only the closing brace matters.  The text of a document is read like a word in
quotation marks, up to the line that ends it.
-/

namespace TaskQueue.Shell

inductive Quotation where
  | plain
  | single
  | double
  | arithmetic
  deriving DecidableEq, Repr, Inhabited

/-- A part of a word in which letters are understood in one way.  References whose own text is
understood in the same way are counted. -/
structure Level where
  quotation : Quotation
  temporary : Bool
  inDoubleQuotes : Bool
  innerQuotes : Bool
  references : Nat
  quotedReferences : Nat
  brackets : Nat
  deriving Repr, Inhabited

def Level.start (quotation : Quotation) (temporary inDoubleQuotes : Bool) : Level :=
  ⟨quotation, temporary, inDoubleQuotes, false, 0, 0, 0⟩

/-- The pieces of a word, or of a part of it that becomes a single piece. -/
structure Frame where
  build : Word → Piece
  outer : Bool
  inQuotes : Bool
  /-- The pieces before the last letters, newest first. -/
  pieces : List Piece
  /-- The last letters, newest first, which are all quoted or not. -/
  run : List Char
  runQuoted : Bool
  deriving Inhabited

namespace Frame

def start (build : Word → Piece) (outer : Bool) : Frame :=
  ⟨build, outer, false, [], [], false⟩

def isQuoted (f : Frame) : Bool :=
  f.outer || f.inQuotes

def flush (f : Frame) : Frame :=
  if f.run = [] then f
  else { f with pieces := .letters f.run.reverse f.runQuoted :: f.pieces, run := [] }

def put (f : Frame) (c : Char) (quoted : Bool) : Frame :=
  if quoted = f.runQuoted then { f with run := c :: f.run }
  else { f.flush with run := [c], runQuoted := quoted }

def add (f : Frame) (p : Piece) : Frame :=
  let f := f.flush
  { f with pieces := p :: f.pieces }

def word (f : Frame) : Word :=
  f.flush.pieces.reverse

end Frame

/-- A word that is being read.  Levels and frames end in the order opposite to their beginning. -/
structure Unfinished where
  level : Level
  outerLevels : List Level
  frame : Frame
  outerFrames : List Frame
  quoted : Bool
  deriving Inhabited

namespace Unfinished

def start (quotation : Quotation) (inDocument : Bool) : Unfinished :=
  ⟨.start quotation false (quotation = .double), [], .start (fun _ => .mark) inDocument, [], false⟩

/-- Adds a letter, which may be quoted on its own. -/
def put (u : Unfinished) (c : Char) (escaped : Bool) : Unfinished :=
  { u with frame := u.frame.put c (escaped || u.frame.isQuoted) }

def add (u : Unfinished) (p : Piece) : Unfinished :=
  { u with frame := u.frame.add p }

def withLevel (u : Unfinished) (f : Level → Level) : Unfinished :=
  { u with level := f u.level }

def pushLevel (u : Unfinished) (l : Level) : Unfinished :=
  { u with level := l, outerLevels := u.level :: u.outerLevels }

def popLevel (u : Unfinished) : Unfinished :=
  match u.outerLevels with
  | [] => u
  | l :: ls => { u with level := l, outerLevels := ls }

def pushFrame (u : Unfinished) (f : Frame) : Unfinished :=
  { u with frame := f, outerFrames := u.frame :: u.outerFrames }

def close (u : Unfinished) : Unfinished :=
  match u.outerFrames with
  | [] => u
  | f :: fs => { u with frame := f.add (u.frame.build u.frame.word), outerFrames := fs }

def mark (u : Unfinished) (inDocument : Bool) : Unfinished :=
  if inDocument then u
  else
    let u := u.add .mark
    { u with frame := { u.frame with inQuotes := !u.frame.inQuotes } }

def doubleMark (u : Unfinished) (inDocument : Bool) : Unfinished :=
  (u.withLevel fun l => { l with innerQuotes := l.innerQuotes != (0 < l.references : Bool) }).mark
    inDocument

def openQuotes (u : Unfinished) (double inDocument : Bool) : Unfinished :=
  if double then
    (u.withLevel fun l => { l with quotation := .double, inDoubleQuotes := true }).doubleMark
      inDocument
  else (u.withLevel fun l => { l with quotation := .single }).mark inDocument

/-- Closes quotation marks; in a document they are letters. -/
def closeQuotes (u : Unfinished) (c : Char) (inDocument : Bool) : Unfinished :=
  if inDocument ∧ u.level.references = 0 then u.put c false
  else
    let u := u.withLevel fun l =>
      if l.quotedReferences = 0 then { l with quotation := .plain, inDoubleQuotes := false } else l
    let u := { u with quoted := true }
    if c = '"' then u.doubleMark inDocument else u.mark inDocument

def closeBrace (u : Unfinished) : Unfinished :=
  if u.level.innerQuotes ∨ u.level.references = 0 then u.put '\x7d' false
  else
    let u := u.withLevel fun l => { l with references := l.references - 1 }
    let u :=
      if u.level.references = 0 ∧ u.level.temporary then u.popLevel
      else u.withLevel fun l => { l with quotedReferences := l.quotedReferences - 1 }
    u.close

/-- Takes a letter after a backslash, which stays where it means nothing. -/
def escape (u : Unfinished) (c : Char) (inDocument : Bool) : Unfinished :=
  let l := u.level
  let stays :=
    l.inDoubleQuotes && c ∉ ['\\', '\x60', '$'] &&
      (c != '"' || (inDocument && l.references == 0)) &&
      (c != '\x7d' || l.references == 0 || (if 0 < l.quotedReferences then l.innerQuotes else true))
  let u := if stays then u.put '\\' true else u
  { u.put c true with quoted := true }

/-- Begins a reference in whose braces another text stands. -/
def openReference (u : Unfinished) (build : Word → Piece) (quotation : Quotation)
    (keepsQuotes : Bool) : Unfinished :=
  let quotation := if quotation = .arithmetic then .double else quotation
  let outer := keepsQuotes && u.frame.isQuoted
  let u :=
    if quotation ≠ u.level.quotation ∨ u.level.innerQuotes then
      u.pushLevel (.start quotation true (quotation ≠ .plain))
    else u
  let u := u.withLevel fun l =>
    { l with
      references := l.references + 1
      quotedReferences := l.quotedReferences + (if l.inDoubleQuotes then 1 else 0) }
  u.pushFrame (.start build outer)

/-- The finished word, or what is missing. -/
def finish (u : Unfinished) (inDocument : Bool) : Except ScriptFlaw Word :=
  if u.level.quotation = .arithmetic then .error .openArithmetic
  else if u.level.quotation ≠ .plain ∧ ¬inDocument then .error .openQuotation
  else if u.level.references ≠ 0 then .error .openBrace
  else .ok u.frame.word

end Unfinished

namespace Word

open Source (take takeJoined putBack countLine)

def isSpecial (c : Char) : Bool :=
  c.isDigit || c ∈ ['?', '$', '#', '@', '*', '!', '-']

/-- The next characters as long as they are of a kind, beginning with the given one, and the one
after them. -/
def takeName (p : Char → Bool) : Nat → Option Char → Reading (List Char × Option Char)
  | 0, c => pure ([], c)
  | n + 1, c => do
    match c with
    | some d =>
      if p d then
        let (cs, next) ← takeName p n (← takeJoined)
        return (d :: cs, next)
      else return ([], c)
    | none => return ([], none)

/-- Reads what follows the name of a parameter in braces, from the given character. -/
def readUsage (u : Unfinished) (name : String) (c : Option Char) : Reading Unfinished := do
  let quoted := u.frame.isQuoted
  let reference (usage : Word → Usage) : Word → Piece := fun w => .parameter name (usage w) quoted
  let unknown := u.openReference (reference fun _ => .unknown) u.level.quotation false
  let orUnknown (alsoEmpty : Bool) (c : Option Char) : Unfinished :=
    match c with
    | some '-' => u.openReference (reference (.orElse alsoEmpty)) u.level.quotation true
    | some '+' => u.openReference (reference (.ifSet alsoEmpty)) u.level.quotation true
    | some '=' => u.openReference (reference (.assign alsoEmpty)) u.level.quotation false
    | some '?' => u.openReference (reference (.require alsoEmpty)) u.level.quotation false
    | some '\x7d' => if alsoEmpty then u.openReference (reference fun _ => .value) u.level.quotation false
      else u.add (.parameter name .value quoted)
    | _ => unknown
  match c with
  | some ':' => return orUnknown true (← takeJoined)
  | some c =>
    if c = '#' ∨ c = '%' then
      let next ← takeJoined
      let longest := decide (next = some c)
      unless longest do putBack next
      return u.openReference (reference (.trim (c = '#') longest)) .plain false
    else return orUnknown false c
  | none => return unknown

def readBraced (u : Unfinished) (n : Nat) : Reading Unfinished := do
  let quoted := u.frame.isQuoted
  let unknown (c : Option Char) : Reading Unfinished := do
    putBack c
    return u.openReference (fun _ => .parameter "" .unknown quoted) u.level.quotation false
  let named (c : Option Char) : Reading (Option (String × Option Char)) := do
    match c with
    | some d =>
      if isNameStart d then
        let (cs, next) ← takeName isNameChar n c
        return some (String.ofList cs, next)
      else if d.isDigit then
        let (cs, next) ← takeName Char.isDigit n c
        return some (String.ofList cs, next)
      else return none
    | none => return none
  let ofLength (name : String) (next : Option Char) : Reading Unfinished := do
    putBack next
    let usage := if next = some '\x7d' then Usage.length else .unknown
    return u.openReference (fun _ => .parameter name usage quoted) u.level.quotation false
  let c ← takeJoined
  match ← named c with
  | some (name, next) => readUsage u name next
  | none =>
    match c with
    | some '#' =>
      let c ← takeJoined
      match ← named c with
      | some (name, next) => ofLength name next
      | none =>
        let next ← takeJoined
        if c = some '\x7d' ∨ next ≠ some '\x7d' then
          putBack next
          readUsage u "#" c
        else
          match c with
          | some d => if isSpecial d then ofLength d.toString next else unknown next
          | none => unknown none
    | some '\x7d' => unknown c
    | some d =>
      let next ← takeJoined
      if isSpecial d then readUsage u d.toString next else unknown next
    | none => unknown none

/-- The text of a script up to a back quote; a backslash protects some characters. -/
def takeBackQuoted (inDoubleQuotes : Bool) : Nat → Reading (List Char)
  | 0 => throw .endless
  | n + 1 => do
    match ← takeJoined with
    | none => throw .openBackQuote
    | some '\x60' => return []
    | some '\\' =>
      match ← take with
      | none => return '\\' :: (← takeBackQuoted inDoubleQuotes n)
      | some c =>
        let rest ← takeBackQuoted inDoubleQuotes n
        if c ∈ ['\\', '\x60', '$'] ∨ (inDoubleQuotes ∧ c = '"') then return c :: rest
        else return '\\' :: c :: rest
    | some '\n' =>
      countLine
      return '\n' :: (← takeBackQuoted inDoubleQuotes n)
    | some c => return c :: (← takeBackQuoted inDoubleQuotes n)

/-- Reads a script that stands between back quotes; its lines have numbers of their own. -/
def readBackQuoted (script : Reading (Option Script)) (u : Unfinished) (n : Nat) :
    Reading Unfinished := do
  let text ← takeBackQuoted u.level.inDoubleQuotes n
  let outside ← get
  set { outside with rest := text, line := 1, waiting := [], active := [], again := false }
  let s ← script
  let inside ← get
  set { outside with documents := inside.documents }
  return u.add (.output s u.frame.isQuoted)

/-- Reads a script up to the closing bracket; its documents do not go on behind that. -/
def readBracketed (script : Reading (Option Script)) (u : Unfinished) : Reading Unfinished := do
  let outer := (← get).waiting
  modify fun s => { s with waiting := [] }
  let s ← script
  modify fun s => { s with waiting := outer }
  return u.add (.output s u.frame.isQuoted)

def readReference (bracketed : Reading (Option Script)) (u : Unfinished) (n : Nat) :
    Reading Unfinished := do
  let c ← takeJoined
  let plain : Reading Unfinished := do
    putBack c
    return u.put '$' false
  if (← get).checks.documentEnd then plain
  else
    match c with
    | some '(' =>
      let next ← takeJoined
      if next = some '(' then
        let quoted := u.frame.isQuoted
        return (u.pushLevel { Level.start .arithmetic false true with }).pushFrame
          (.start (fun w => .arithmetic w quoted) false)
      else
        putBack next
        readBracketed bracketed u
    | some '\x7b' => readBraced u n
    | some d =>
      if isNameStart d then
        let (cs, next) ← takeName isNameChar n c
        putBack next
        return u.add (.parameter (String.ofList cs) .value u.frame.isQuoted)
      else if isSpecial d then return u.add (.parameter d.toString .value u.frame.isQuoted)
      else plain
    | none => plain

def closeBracket (u : Unfinished) : Reading Unfinished := do
  if 0 < u.level.brackets then
    return (u.withLevel fun l => { l with brackets := l.brackets - 1 }).put ')' false
  else
    let next ← takeJoined
    if next = some ')' then return u.popLevel.close
    else
      putBack next
      return u.put ')' false

/-- At the start of a line of a document: whether the document ends here. -/
def documentEnds (w : Waiting) : Reading Bool := do
  unless w.literal do
    putBack (← takeJoined)
  let s ← get
  let rest := if w.dropsTabs then s.rest.dropWhile (· = '\t') else s.rest
  let line := rest.takeWhile (· ≠ '\n')
  if line = w.lastLine then
    set { s with rest := rest.drop (line.length + 1), line := s.line + 1 }
    return true
  else
    set { s with rest }
    return rest = []

def endsWord (c : Char) : Bool :=
  c ∈ [' ', '\t', '<', '>', '(', ')', ';', '&', '|']

def isActive (c : Char) : Bool :=
  c ∈ ['!', '*', '?', '[', '=', '~', ':', '/', '-', ']', '\\']

/-- What scripts in a word are read by: those in brackets and those in back quotes. -/
structure Inner where
  bracketed : Reading (Option Script)
  backQuoted : Reading (Option Script)

/-- Reads on from a character to the end of the word or the document. -/
def readOn (inner : Inner) (document : Option Waiting) :
    Nat → Unfinished → Option Char → Reading Unfinished
  | 0, _, _ => throw .endless
  | n + 1, u, c => do
    let next (u : Unfinished) : Reading Unfinished := do
      let c ← if u.level.quotation = .single then take else takeJoined
      readOn inner document n u c
    let stop : Reading Unfinished := do
      putBack c
      return u
    let inDocument := document.isSome
    match c with
    | none => return u
    | some '\n' =>
      if u.level.quotation = .plain ∧ u.level.references = 0 ∧ ¬inDocument then stop
      else
        countLine
        let u := u.put '\n' false
        match document with
        | none => next u
        | some w =>
          if ← documentEnds w then return u
          else readOn inner document n u (← take)
    | some c =>
      match u.level.quotation, c with
      | .single, '\'' => next (u.closeQuotes '\'' inDocument)
      | .single, c => next (u.put c (isActive c))
      | _, '\\' =>
        match ← take with
        | none => return u.put '\\' true
        | some c => next (u.escape c inDocument)
      | _, '$' => next (← readReference inner.bracketed u n)
      | _, '\x60' =>
        if (← get).checks.documentEnd then next { u.put c false with quoted := true }
        else next (← readBackQuoted inner.backQuoted u n)
      | _, '\x7d' => next u.closeBrace
      | .double, '"' => next (u.closeQuotes '"' inDocument)
      | .double, c => next (u.put c (isActive c))
      | .arithmetic, '(' =>
        next ((u.withLevel fun l => { l with brackets := l.brackets + 1 }).put c false)
      | .arithmetic, ')' => next (← closeBracket u)
      | .arithmetic, c => next (u.put c false)
      | .plain, '\'' => next (u.openQuotes false inDocument)
      | .plain, '"' => next (u.openQuotes true inDocument)
      | .plain, c =>
        if endsWord c ∧ u.level.references = 0 then stop else next (u.put c false)

/-- Ends a word, or refuses it. -/
def finish (u : Unfinished) (inDocument : Bool) : Reading Word :=
  match u.finish inDocument with
  | .ok w => pure w
  | .error flaw => throw flaw

def readRedirection (stream : Option Nat) (c : Char) : Reading Token := do
  let next ← takeJoined
  if c = '>' then
    let operator ← match next with
      | some '>' => pure ">>"
      | some '|' => pure ">|"
      | some '&' => pure ">&"
      | next =>
        putBack next
        pure ">"
    return .redirection (stream.getD 1) operator
  else
    let operator ← match next with
      | some '<' =>
        let after ← takeJoined
        if after = some '-' then pure "<<-"
        else
          putBack after
          pure "<<"
      | some '&' => pure "<&"
      | some '>' => pure "<>"
      | next =>
        putBack next
        pure "<"
    return .redirection (stream.getD 0) operator

/-- Reads a word from its first character on, or a redirection. -/
def read (inner : Inner) (n : Nat) (c : Option Char) : Reading Token := do
  let u ← readOn inner none n (.start .plain false) c
  let w ← finish u false
  let stream? : Option (Option Nat) :=
    match w with
    | [] => some none
    | [.letters [d] false] => if d.isDigit then some (some (d.toNat - '0'.toNat)) else none
    | _ => none
  match (← get).rest.head?, u.quoted, stream? with
  | some '<', false, some stream => readRedirection stream ((← take).getD '<')
  | some '>', false, some stream => readRedirection stream ((← take).getD '>')
  | _, quoted, _ => return .word w quoted

def readDocument (inner : Inner) (n : Nat) (w : Waiting) : Reading Word := do
  let u := Unfinished.start (if w.literal then .single else .double) true
  if ← documentEnds w then return []
  else finish (← readOn inner (some w) n u (← take)) true

end Word

end TaskQueue.Shell
