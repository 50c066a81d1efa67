import TargetQuery.Script.Command

/-!
# Reading scripts

The text of a script as it is being read: what is left of it, the line that has been reached, and
the documents that begin at the next line. A backslash in front of a line end joins two lines.
-/

namespace TargetQuery.Script

/-- Why a script cannot be read on. -/
structure Mistake where
  line : Nat
  text : String

inductive Token where
  | done
  | newline
  /-- A redirection, with the number of a stream directly in front of it. -/
  | redirection (stream? : Option Nat) (operator : String)
  | word (w : Word)
  | operator (s : String)
  /-- A word with a meaning where a command may begin. -/
  | keyword (s : String)

def Token.name : Token → String
  | .done => "end of file"
  | .newline => "newline"
  | .redirection .. => "redirection"
  | .word _ => "word"
  | .operator s | .keyword s => "\"" ++ s ++ "\""

/-- A document that begins at the next line. -/
structure Awaited where
  number : Nat
  /-- The line that ends it. -/
  stop : Chars
  /-- Nothing in it is replaced. -/
  literal : Bool
  /-- Tabs at the start of lines are dropped. -/
  indented : Bool

structure Source where
  rest : Chars
  line : Nat := 1
  awaited : List Awaited := []
  /-- The documents that have been read, by their numbers. -/
  documents : List (Nat × Word) := []
  nextDocument : Nat := 0
  /-- A token that has been looked at and not taken. -/
  pushed : Option Token := none
  aliases : List (Chars × Chars) := []
  /-- Aliases that have been put in, and how much of the script is left behind each of them. -/
  busy : List (Chars × Nat) := []
  /-- How much of the script is left behind an alias that ends in a blank, after which the next word
  may be an alias too. -/
  reopened : Option Nat := none

abbrev Reading := StateT Source (Except Mistake)

namespace Reading

def fail {α : Type} (text : String) : Reading α := do
  throw ⟨(← get).line, text⟩

def unexpected {α : Type} (t : Token) (wanted : Option String) : Reading α :=
  let tail := match wanted with
    | some w => " (expecting " ++ w ++ ")"
    | none => ""
  fail (t.name ++ " unexpected" ++ tail)

/-- A text without the joints in front, and how many there are. -/
def withoutJoints : Nat → Chars → Chars × Nat
  | n, '\\' :: '\n' :: rest => withoutJoints (n + 1) rest
  | n, rest => (rest, n)

/-- The next character, which is not taken. Joints in front of it are passed. -/
def peek : Reading (Option Char) := do
  let s ← get
  match s.rest with
  | '\\' :: '\n' :: _ =>
    let (rest, n) := withoutJoints 0 s.rest
    set { s with rest, line := s.line + n }
    pure rest.head?
  | rest => pure rest.head?

def take : Reading (Option Char) := do
  let s ← get
  match s.rest with
  | [] => pure none
  | c :: rest =>
    set { s with rest, line := if c == '\n' then s.line + 1 else s.line }
    pure (some c)

/-- Takes characters as long as they are of a kind; joints between them are passed. The fuel bounds
their number. -/
def takeAll (kind : Char → Bool) : Nat → Chars → Reading Chars
  | 0, taken => pure taken.reverse
  | fuel + 1, taken => do
    match ← peek with
    | some c =>
      if kind c then
        let _ ← take
        takeAll kind fuel (c :: taken)
      else pure taken.reverse
    | none => pure taken.reverse

def takeKind (kind : Char → Bool) : Reading Chars := do
  takeAll kind ((← get).rest.length + 1) []

def takeIf (c : Char) : Reading Bool := do
  if (← peek) == some c then
    let _ ← take
    pure true
  else pure false

def takeUpTo (stop : Char) (missing : String) : Reading Chars := do
  let s ← get
  let taken := s.rest.takeWhile (· != stop)
  let line := s.line + taken.count '\n'
  match s.rest.drop taken.length with
  | [] =>
    set { s with rest := [], line }
    fail missing
  | _ :: rest =>
    set { s with rest, line }
    pure taken

/-- The script between backquotes. A backslash takes away the meaning of a backquote, a dollar sign
and another backslash, and within double quotes of a double quote. The fuel bounds its length. -/
def takeBackquoted (quoted : Bool) : Nat → Chars → Reading Chars
  | 0, taken => pure taken.reverse
  | fuel + 1, taken => do
    match ← take with
    | none => fail "EOF in backquote substitution"
    | some '`' => pure taken.reverse
    | some '\\' =>
      match ← take with
      | none => takeBackquoted quoted fuel ('\\' :: taken)
      | some '\n' => takeBackquoted quoted fuel taken
      | some d =>
        if d == '\\' || d == '`' || d == '$' || (d == '"' && quoted) then
          takeBackquoted quoted fuel (d :: taken)
        else takeBackquoted quoted fuel (d :: '\\' :: taken)
    | some c => takeBackquoted quoted fuel (c :: taken)

/-- Passes blanks and comments. The fuel bounds the length of the script. -/
def skipBlanks : Nat → Reading Unit
  | 0 => pure ()
  | fuel + 1 => do
    match ← peek with
    | some c =>
      if isBlank c then
        let _ ← take
        skipBlanks fuel
      else if c == '#' then modify fun s => { s with rest := s.rest.dropWhile (· != '\n') }
      else pure ()
    | none => pure ()

def isContinued (line : Chars) : Bool :=
  (line.reverse.takeWhile (· == '\\')).length % 2 == 1

/-- The lines of a document up to the one that ends it, the last one first, and what is left. The
fuel bounds their number. -/
def documentLines (a : Awaited) : Nat → Bool → List Chars → Chars → List Chars × Chars
  | 0, _, body, s => (body, s)
  | fuel + 1, continues, body, s =>
    if s.isEmpty then (body, [])
    else
      let line := s.takeWhile (· != '\n')
      let rest := s.drop line.length
      let text := if a.indented then line.dropWhile (· == '\t') else line
      if !continues && text == a.stop then (body, rest.drop 1)
      else
        let text := text ++ rest.take 1
        documentLines a fuel (!a.literal && isContinued line) (text :: body) (rest.drop 1)

/-- Takes the text of a document, and says in which line it begins. -/
def takeDocument (a : Awaited) : Reading (Chars × Nat) := do
  let s ← get
  let (body, rest) := documentLines a (s.rest.length + 1) false [] s.rest
  let taken := s.rest.length - rest.length
  set { s with rest, line := s.line + (s.rest.take taken).count '\n' }
  pure (body.reverse.flatten, s.line)

end Reading

def Source.isDone (s : Source) : Bool :=
  match s.pushed with
  | some .done => true
  | _ => false

end TargetQuery.Script
