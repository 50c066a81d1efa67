/-!
# TOML strings

A string stands between quotes of either kind, single or tripled. Double quotes admit escapes,
single ones do not; tripled ones admit line ends. The writer selects the form in which the text
needs the least escaping; the reader takes back every form.
-/

namespace TargetQuery.Toml

/-- The four ways to write a string. -/
inductive Form where
  | basic
  | literal
  | multiBasic
  | multiLiteral
deriving DecidableEq, Repr

namespace Form

def mark : Form → Char
  | .basic | .multiBasic => '"'
  | .literal | .multiLiteral => '\''

/-- Whether a backslash begins an escape. -/
def escapes : Form → Bool
  | .basic | .multiBasic => true
  | .literal | .multiLiteral => false

/-- Whether the quotes are tripled, and the text may have several lines. -/
def isMulti : Form → Bool
  | .basic | .literal => false
  | .multiBasic | .multiLiteral => true

/-- The quotes at either end. -/
def delimiter (f : Form) : List Char := List.replicate (if f.isMulti then 3 else 1) f.mark

end Form

/-- A control character other than a tab; none may stand in a document as it is, except in line
ends. -/
def isControl (c : Char) : Bool := (c.toNat < 0x20 && c != '\t') || c.toNat == 0x7F

/-! ### Writing -/

/-- The length of the longest run of a character, where `run` of them stand in front of the text. -/
def longestRun (c : Char) : Nat → List Char → Nat
  | run, [] => run
  | run, d :: rest =>
    if d == c then longestRun c (run + 1) rest else max run (longestRun c 0 rest)

def Form.choose (s : List Char) : Form :=
  let codes := s.any fun c => isControl c && c != '\n'
  let backslash := s.contains '\\'
  let newline := s.contains '\n'
  let doubles := longestRun '"' 0 s
  let singles := longestRun '\'' 0 s
  if !codes && !backslash && doubles == 0 && !newline then .basic
  else if !codes && singles == 0 && !newline then .literal
  else if !codes && !backslash && doubles ≤ 2 then .multiBasic
  else if !codes && singles ≤ 2 then .multiLiteral
  else if newline then .multiBasic
  else .basic

/-- Four upper-case hexadecimal digits. -/
def upperQuad (n : Nat) : List Char :=
  let digits := (Nat.toDigits 16 n).map Char.toUpper
  List.replicate (4 - digits.length) '0' ++ digits

/-- The escape of a character, if it needs one wherever it stands. -/
def escapeOf? (multi : Bool) (c : Char) : Option (List Char) :=
  if c == Char.ofNat 0x08 then some ['\\', 'b']
  else if c == '\t' then some ['\\', 't']
  else if c == '\n' then (if multi then none else some ['\\', 'n'])
  else if c == Char.ofNat 0x0C then some ['\\', 'f']
  else if c == '\r' then some ['\\', 'r']
  else if c == '\\' then some ['\\', '\\']
  else if isControl c then some ('\\' :: 'u' :: upperQuad c.toNat)
  else none

/-- The text with escapes, behind a run of double quotes. At most two of them may stand together
between tripled quotes, and none between single ones. -/
def escapeFrom (multi : Bool) : Nat → List Char → List Char
  | _, [] => []
  | run, c :: rest =>
    if c == '"' then
      if run < (if multi then 2 else 0) then '"' :: escapeFrom multi (run + 1) rest
      else '\\' :: '"' :: escapeFrom multi 0 rest
    else match escapeOf? multi c with
      | some escape => escape ++ escapeFrom multi 0 rest
      | none => c :: escapeFrom multi 0 rest

/-- The text in a form. Text of several lines begins on a line of its own. -/
def Form.render (f : Form) (s : List Char) : List Char :=
  let opening := if f.isMulti && s.contains '\n' then ['\n'] else []
  let body := if f.escapes then escapeFrom f.isMulti 0 s else s
  f.delimiter ++ opening ++ body ++ f.delimiter

def quote (s : List Char) : List Char := (Form.choose s).render s

/-! ### Reading -/

/-- The value of a hexadecimal digit of either case. -/
def hexDigit? (c : Char) : Option Nat :=
  let n := c.toNat
  if 0x30 ≤ n && n ≤ 0x39 then some (n - 0x30)
  else if 0x41 ≤ n && n ≤ 0x46 then some (n - 0x37)
  else if 0x61 ≤ n && n ≤ 0x66 then some (n - 0x57)
  else none

def charOfNumber? (n : Nat) : Option Char := if n.isValidChar then some (Char.ofNat n) else none

/-- The character behind a backslash that stands for another. -/
def shortEscape? (c : Char) : Option Char :=
  if c == 'b' then some (Char.ofNat 0x08)
  else if c == 't' then some '\t'
  else if c == 'n' then some '\n'
  else if c == 'f' then some (Char.ofNat 0x0C)
  else if c == 'r' then some '\r'
  else if c == '"' then some '"'
  else if c == '\\' then some '\\'
  else none

/-- What has been seen of something that is more than one character. -/
inductive Pending where
  | clear
  | backslash
  /-- A character by number: the digits still to come after the next one, and the value so far. -/
  | number (more value : Nat)
  /-- A backslash at the end of a line, which takes away all white space up to the next character;
  whether the line has ended yet. -/
  | lineEnd (passed : Bool)
  /-- Half of a line end; whether it belongs to the text. -/
  | carriageReturn (kept : Bool)
deriving DecidableEq, Repr

inductive Step where
  | refuse
  /-- The string ends with so many quotes, of which the first few belong to the text. -/
  | close (quotes : Nat)
  /-- Some text is read, and the string goes on. -/
  | go (text : List Char) (next : Pending)

/-- How many quotes stand in front. -/
def runLength (mark : Char) (s : List Char) : Nat := (s.takeWhile (· == mark)).length

/-- A character that is not part of anything longer. Between tripled quotes, one or two quotes
belong to the text; three or more end the string, and then the last three are not part of it. -/
def Form.clearStep (f : Form) (c : Char) (rest : List Char) : Step :=
  if c == f.mark then
    if f.isMulti then
      let run := 1 + runLength f.mark rest
      if run < 3 then .go [c] .clear else .close (min run 5)
    else .close 1
  else if c == '\\' && f.escapes then .go [] .backslash
  else if c == '\n' && f.isMulti then .go [c] .clear
  else if c == '\r' && f.isMulti then .go [] (.carriageReturn true)
  else if isControl c then .refuse
  else .go [c] .clear

def Form.escapeStep (f : Form) (c : Char) : Step :=
  if c == 'u' then .go [] (.number 3 0)
  else if c == 'U' then .go [] (.number 7 0)
  else match shortEscape? c with
    | some d => .go [d] .clear
    | none =>
      if !f.isMulti then .refuse
      else if c == ' ' || c == '\t' then .go [] (.lineEnd false)
      else if c == '\n' then .go [] (.lineEnd true)
      else if c == '\r' then .go [] (.carriageReturn false)
      else .refuse

/-- One more character, and what stands behind it. -/
def Form.step (f : Form) : Pending → Char → List Char → Step
  | .clear, c, rest => f.clearStep c rest
  | .backslash, c, _ => f.escapeStep c
  | .number more value, c, _ =>
    match hexDigit? c, more with
    | none, _ => .refuse
    | some d, more + 1 => .go [] (.number more (value * 16 + d))
    | some d, 0 =>
      match charOfNumber? (value * 16 + d) with
      | some e => .go [e] .clear
      | none => .refuse
  | .lineEnd passed, c, rest =>
    if c == ' ' || c == '\t' then .go [] (.lineEnd passed)
    else if c == '\n' then .go [] (.lineEnd true)
    else if c == '\r' then .go [] (.carriageReturn false)
    else if passed then f.clearStep c rest
    else .refuse
  | .carriageReturn kept, c, _ =>
    if c == '\n' then (if kept then .go [c] .clear else .go [] (.lineEnd true)) else .refuse

/-- Reads a string from within, up to and with its closing quotes. -/
def Form.readFrom (f : Form) : Pending → List Char → Option (List Char × List Char)
  | _, [] => none
  | pending, c :: rest =>
    match f.step pending c rest with
    | .refuse => none
    | .close quotes => some (List.replicate (quotes - 3) c, (c :: rest).drop quotes)
    | .go text next =>
      match f.readFrom next rest with
      | some (s, rest) => some (text ++ s, rest)
      | none => none

/-- The text without a line end at its start. -/
def dropLineEnd : List Char → List Char
  | '\n' :: rest => rest
  | '\r' :: '\n' :: rest => rest
  | s => s

/-- Reads a string of one line between quotes. -/
def readSingle : List Char → Option (List Char × List Char)
  | '"' :: rest => Form.readFrom .basic .clear rest
  | '\'' :: rest => Form.readFrom .literal .clear rest
  | _ => none

def readText : List Char → Option (List Char × List Char)
  | '"' :: '"' :: '"' :: rest => Form.readFrom .multiBasic .clear (dropLineEnd rest)
  | '\'' :: '\'' :: '\'' :: rest => Form.readFrom .multiLiteral .clear (dropLineEnd rest)
  | s => readSingle s

end TargetQuery.Toml
