import TaskQueue.Power
import TaskQueue.Shell.Word

/-!
# The grammar of scripts

Commands are read from a source up to the end of a line.  What stands in brackets, between words such
as `do` and `done`, or after an operator that needs another command goes on over the end of a line,
and the documents of a line follow it.
-/

namespace TaskQueue.Shell

/-- The commands that belong to the shell itself, so that no function can have their names. -/
def specialNames : List String :=
  [":", ".", "break", "continue", "eval", "exec", "exit", "export", "local", "readonly", "return",
   "set", "shift", "times", "trap", "unset"]

namespace Grammar

open Source (takeJoined putBack countLine skipComment setChecks pushBack refuse refuseForWord)

def atCommand : Checks :=
  ⟨false, true, true, false⟩

/-- The checks where line feeds do not matter and a command may follow. -/
def beforeCommand : Checks :=
  ⟨true, true, true, false⟩

/-- The next token, if it is no word; a word is read from its first character on. -/
def scan (inner : Word.Inner) : Nat → Reading Token
  | 0 => throw .endless
  | n + 1 => do
    let c ← takeJoined
    let either (second : Char) (double single : String) : Reading Token := do
      let next ← takeJoined
      if next = some second then return .operator double
      else
        putBack next
        return .operator single
    match c with
    | none => return .endOfFile
    | some ' ' => scan inner n
    | some '\t' => scan inner n
    | some '#' =>
      skipComment
      scan inner n
    | some '\n' =>
      countLine
      return .newline
    | some '&' => either '&' "&&" "&"
    | some '|' => either '|' "||" "|"
    | some ';' => either ';' ";;" ";"
    | some '(' => return .operator "("
    | some ')' => return .operator ")"
    | c => Word.read inner n c

/-- The last token again, or the next one. -/
def lastOrNext (inner : Word.Inner) (n : Nat) : Reading Token := do
  let s ← get
  if s.again then
    set { s with again := false }
    return s.last
  else
    let t ← scan inner n
    modify fun s => { s with last := t }
    return t

def documents (inner : Word.Inner) (n : Nat) : Reading Unit := do
  let waiting := (← get).waiting
  modify fun s => { s with waiting := [] }
  for w in waiting do
    let text ← Word.readDocument inner n w
    modify fun s => { s with documents := s.documents.setIfInBounds w.number text }

/-- The first token that is no line feed, from the given one on. -/
def skipLineFeeds (inner : Word.Inner) : Nat → Token → Reading Token
  | 0, _ => throw .endless
  | n + 1, t => do
    match t with
    | .newline =>
      documents inner n
      setChecks .none
      skipLineFeeds inner n (← lastOrNext inner n)
    | t => return t

def enterAlias (name text : String) : Reading Unit :=
  modify fun s =>
    if text = "" then s
    else
      let endsInBlank := text.toList.getLast?.any fun c => c = ' ' ∨ c = '\t'
      { s with
        rest := text.toList ++ s.rest
        active := ⟨name :: s.left, s.rest.length, endsInBlank⟩ :: s.active
        left := [] }

/-- The next token, under the checks of the source and further ones. -/
def tokenWith (inner : Word.Inner) : Nat → Checks → Reading Token
  | 0, _ => throw .endless
  | n + 1, checks => do
    let t ← lastOrNext inner n
    let t ← if checks.lineFeeds then skipLineFeeds inner n t else pure t
    let late := (← get).checks
    let checks :=
      { checks with
        keywords := checks.keywords || late.keywords
        aliases := checks.aliases || late.aliases }
    setChecks .none
    match t with
    | .word w false =>
      match w.plain? with
      | none => return t
      | some s =>
        if checks.keywords ∧ s ∈ Token.keywords then
          modify fun source => { source with last := .keyword s }
          return .keyword s
        else if checks.aliases ∧ s ∉ (← get).aliasesInUse then
          match (← get).aliases.find? fun p => p.1 = s with
          | some (name, text) =>
            enterAlias name text
            tokenWith inner n checks
          | none => return t
        else return t
    | t => return t

def token (inner : Word.Inner) (n : Nat) : Reading Token := do
  tokenWith inner n (← get).checks

/-- The next token, which has to be the given operator. -/
def expectOperator (inner : Word.Inner) (n : Nat) (s : String) : Reading Unit := do
  unless (← token inner n).isOperator s do refuse (some s)

/-- The next token, which has to be the given keyword. -/
def expectKeyword (inner : Word.Inner) (n : Nat) (s : String) : Reading Unit := do
  unless (← token inner n).isKeyword s do refuse (some s)

/-- Where a copied stream comes from, if that is written as a digit or as a dash. -/
def copiedStream? (s : String) : Option (Option Nat) :=
  match s.toList with
  | ['-'] => some none
  | [d] => if d.isDigit then some (some (d.toNat - '0'.toNat)) else none
  | _ => none

def redirectionTo (inner : Word.Inner) (n stream : Nat) (operator : String) :
    Reading Redirection := do
  let announces := operator = "<<" ∨ operator = "<<-"
  if announces then modify fun s => { s with checks := { s.checks with documentEnd := true } }
  match ← token inner n with
  | .word w quoted =>
    match operator with
    | "<" => return .file stream .read w
    | ">" => return .file stream .write w
    | ">|" => return .file stream .overwrite w
    | ">>" => return .file stream .append w
    | "<>" => return .file stream .readWrite w
    | "<&" | ">&" =>
      match w.plain?.bind copiedStream? with
      | some source => return .copy stream source
      | none => return .copyNamed stream w
    | _ =>
      let s ← get
      let number := s.documents.size
      set { s with
        documents := s.documents.push []
        waiting := s.waiting ++ [Waiting.mk number w.text.toList (operator = "<<-") quoted] }
      return .document stream number
  | _ => refuse none

def redirections (inner : Word.Inner) : Nat → Reading (List Redirection)
  | 0 => throw .endless
  | n + 1 => do
    match ← token inner n with
    | .redirection stream operator =>
      let r ← redirectionTo inner n stream operator
      return r :: (← redirections inner n)
    | _ =>
      pushBack
      return []

/-- The words of a loop, and whether the list of them has ended properly. -/
def words (inner : Word.Inner) : Nat → Reading (List Word)
  | 0 => throw .endless
  | n + 1 => do
    match ← token inner n with
    | .word w _ => return w :: (← words inner n)
    | .newline => return []
    | t => if t.isOperator ";" then return [] else refuse none

/-- The word that a token stands for as a pattern. -/
def patternOf? : Token → Option Word
  | .word w _ => some w
  | .keyword s => some [.letters s.toList false]
  | _ => none

/-- The patterns before a closing bracket, from the given token on.  An operator in the place of a
pattern is passed over. -/
def patterns (inner : Word.Inner) : Nat → Token → Reading (List Word)
  | 0, _ => throw .endless
  | n + 1, first => do
    let w := (patternOf? first).toList
    let t ← token inner n
    if t.isOperator "|" then
      return w ++ (← patterns inner n (← token inner n))
    else if t.isOperator ")" then return w
    else refuse (some ")")

structure Simple where
  assignments : List Word
  words : List Word
  redirections : List Redirection

def inBackground : Script → Script
  | .pipe stages _ => .pipe stages true
  | .redirected line s rs => .background line s rs
  | s => .background 0 s []

def allArguments : Word :=
  [.mark, .parameter "@" .value true, .mark]

mutual

/-- Reads a list of commands: a line of a script, or the commands up to a token that ends a list,
of which there has to be one unless `mayEnd`. -/
def list : Nat → Bool → Bool → Option Script → Reading (Option Script)
  | 0, _, _, _ => throw .endless
  | n + 1, isLine, mayEnd, before => do
    let inner := innerOf n
    setChecks (if isLine then atCommand else beforeCommand)
    let t ← token inner n
    match t with
    | .newline =>
      documents inner n
      return before
    | .endOfFile =>
      documents inner n
      pushBack
      return before
    | _ =>
      pushBack
      if ¬isLine ∧ mayEnd ∧ t.endsList then return before
      let s ← andOr n
      let t ← token inner n
      let s := if t.isOperator "&" then inBackground s else s
      let s := before.elim s fun b => .sequence b s
      let ends : Bool :=
        match t with
        | .newline | .endOfFile => true
        | _ => false
      if t.isOperator "&" ∨ t.isOperator ";" then list n isLine true (some s)
      else if ends then
        pushBack
        list n isLine true (some s)
      else if isLine then refuse none
      else
        pushBack
        return some s

def andOr : Nat → Reading Script
  | 0 => throw .endless
  | n + 1 => do andOrFrom n (← pipeline n)

def andOrFrom : Nat → Script → Reading Script
  | 0, _ => throw .endless
  | n + 1, a => do
    let t ← token (innerOf n) n
    if t.isOperator "&&" then
      setChecks beforeCommand
      andOrFrom n (.both a (← pipeline n))
    else if t.isOperator "||" then
      setChecks beforeCommand
      andOrFrom n (.either a (← pipeline n))
    else
      pushBack
      return a

/-- Reads commands of which each gets the output of the one before. -/
def pipeline : Nat → Reading Script
  | 0 => throw .endless
  | n + 1 => do
    let inner := innerOf n
    let t ← token inner n
    let negated := t.isKeyword "!"
    if negated then setChecks atCommand else pushBack
    let first ← command n
    let more ← stages n
    let s := if more.isEmpty then first else .pipe (first :: more) false
    return if negated then .negation s else s

def stages : Nat → Reading (List Script)
  | 0 => throw .endless
  | n + 1 => do
    let t ← token (innerOf n) n
    if t.isOperator "|" then
      setChecks beforeCommand
      let s ← command n
      return s :: (← stages n)
    else
      pushBack
      return []

def command : Nat → Reading Script
  | 0 => throw .endless
  | n + 1 => do
    let inner := innerOf n
    let line := (← get).line
    match ← token inner n with
    | .word _ _ =>
      pushBack
      simple n (← get).line ⟨[], [], []⟩
    | .redirection _ _ =>
      pushBack
      simple n (← get).line ⟨[], [], []⟩
    | .operator "(" =>
      let s ← required n
      expectOperator inner n ")"
      setChecks atCommand
      return .subshell line s (← redirections inner n)
    | .keyword k =>
      let s ← match k with
        | "if" => branch n
        | "while" => loop n false
        | "until" => loop n true
        | "for" => each n line
        | "case" => choice n line
        | "\x7b" =>
          let s ← required n
          expectKeyword inner n "\x7d"
          pure s
        | _ => refuse none
      setChecks atCommand
      let rs ← redirections inner n
      return if rs.isEmpty then s else .redirected line s rs
    | _ => refuse none

/-- Reads a list of at least one command.  There is none only at the end of the source, where what
has to follow the list is missed. -/
def required : Nat → Reading Script
  | 0 => throw .endless
  | n + 1 => do return (← list n false false none).getD (.simple 0 [] [] [])

def branch : Nat → Reading Script
  | 0 => throw .endless
  | n + 1 => do
    let inner := innerOf n
    let condition ← required n
    expectKeyword inner n "then"
    let yes ← required n
    match ← token inner n with
    | .keyword "elif" => return .branch condition yes (some (← branch n))
    | .keyword "else" =>
      let no ← required n
      expectKeyword inner n "fi"
      return .branch condition yes (some no)
    | .keyword "fi" => return .branch condition yes none
    | _ => refuse (some "fi")

def loop : Nat → Bool → Reading Script
  | 0, _ => throw .endless
  | n + 1, inverted => do
    let inner := innerOf n
    let condition ← required n
    expectKeyword inner n "do"
    let body ← required n
    expectKeyword inner n "done"
    return .loop inverted condition body

def each : Nat → Nat → Reading Script
  | 0, _ => throw .endless
  | n + 1, line => do
    let inner := innerOf n
    let name? : Option String :=
      match ← token inner n with
      | .word w false => w.plain?.filter isName
      | _ => none
    match name? with
    | none => throw .loopVariable
    | some name =>
      setChecks beforeCommand
      let t ← token inner n
      let ws ←
        if t.isKeyword "in" then words inner n
        else
          unless t.isOperator ";" do pushBack
          pure [allArguments]
      setChecks beforeCommand
      expectKeyword inner n "do"
      let body ← required n
      expectKeyword inner n "done"
      return .each line name ws body

def choice : Nat → Nat → Reading Script
  | 0, _ => throw .endless
  | n + 1, line => do
    let inner := innerOf n
    match ← token inner n with
    | .word subject _ =>
      setChecks beforeCommand
      expectKeyword inner n "in"
      return .choice line subject (← cases n)
    | _ => refuseForWord

def cases : Nat → Reading (List (List Word × Option Script))
  | 0 => throw .endless
  | n + 1 => do
    let inner := innerOf n
    setChecks ⟨true, true, false, false⟩
    let t ← token inner n
    if t.isKeyword "esac" then return []
    else
      let t ← if t.isOperator "(" then token inner n else pure t
      let ps ← patterns inner n t
      let body ← list n false true none
      setChecks ⟨true, true, false, false⟩
      let t ← token inner n
      if t.isKeyword "esac" then return [(ps, body)]
      else if t.isOperator ";;" then return (ps, body) :: (← cases n)
      else refuse (some ";;")

/-- Reads on in a simple command, which may turn out to define a function. -/
def simple : Nat → Nat → Simple → Reading Script
  | 0, _, _ => throw .endless
  | n + 1, line, c => do
    let inner := innerOf n
    if c.words.isEmpty then setChecks ⟨false, false, true, false⟩
    match ← token inner n with
    | .word w _ =>
      if c.words.isEmpty ∧ w.assigned?.isSome then
        simple n line { c with assignments := c.assignments ++ [w] }
      else simple n line { c with words := c.words ++ [w] }
    | .redirection stream operator =>
      let r ← redirectionTo inner n stream operator
      simple n line { c with redirections := c.redirections ++ [r] }
    | t =>
      match t.isOperator "(", c with
      | true, ⟨[], [w], []⟩ =>
        expectOperator inner n ")"
        match w.plain? with
        | some name =>
          if isName name ∧ name ∉ specialNames then
            setChecks beforeCommand
            let line := (← get).line
            return .definition line name (← command n)
          else throw .functionName
        | none => throw .functionName
      | _, c =>
        pushBack
        return .simple line c.assignments c.words c.redirections

/-- Reads a script in brackets; documents that are announced last in it have no text. -/
def bracketed : Nat → Reading (Option Script)
  | 0 => throw .endless
  | n + 1 => do
    let s ← list n false true none
    expectOperator (innerOf n) n ")"
    return s

def enclosed : Nat → Reading (Option Script)
  | 0 => throw .endless
  | n + 1 => list n false true none

def innerOf : Nat → Word.Inner
  | 0 => ⟨throw .endless, throw .endless⟩
  | n + 1 => ⟨bracketed n, enclosed n⟩

end

/-- The number of steps in which a script is read, which none needs. -/
def maxSteps : Nat := 2 ^ (40 : Nat)

end Grammar

/-- Reads the next line of a script; there is none at its end. -/
def Script.line? : Reading (Option (Option Script)) := do
  modify fun s => { s with again := false, checks := .none, waiting := [] }
  let s ← Grammar.list Grammar.maxSteps true true none
  let source ← get
  match s, source.again, source.last with
  | none, true, .endOfFile => return none
  | s, _, _ => return some s

end TaskQueue.Shell
