import TargetQuery.Toml.Number
import TargetQuery.Toml.Text

/-!
# TOML expressions

A document is a sequence of expressions, one a line: a key with its value, the header of a table, or
the header of one more table of that name. What the expressions mean together is not settled here.
-/

namespace TargetQuery.Toml

/-- A line of a document that says something. -/
inductive Expression where
  | pair (keys : List String) (value : Value)
  | header (keys : List String)
  | element (keys : List String)

/-- How deep arrays and inline tables may be nested, and how many parts a dotted key may have. -/
def maxDepth : Nat := 79

/-- The text without spaces and tabs in front. -/
def skipBlanks (s : List Char) : List Char := s.dropWhile fun c => c == ' ' || c == '\t'

/-- Passes the rest of a line that is a comment or nothing. -/
def comment : List Char → List Char
  | '#' :: rest => rest.dropWhile fun c => !isControl c
  | s => s

/-- Passes the end of a line or of the text. -/
def lineEnd : List Char → Option (List Char)
  | [] => some []
  | '\n' :: rest => some rest
  | '\r' :: '\n' :: rest => some rest
  | _ => none

/-- Passes what may follow an expression on its line. -/
def trailing (s : List Char) : Option (List Char) := lineEnd (comment (skipBlanks s))

/-- Passes white space, line ends and comments. A comment must end with its line. The fuel bounds
the number of lines. -/
def skipLines : Nat → List Char → List Char
  | 0, s => s
  | fuel + 1, s =>
    let s := skipBlanks s
    match comment s with
    | '\n' :: rest => skipLines fuel rest
    | '\r' :: '\n' :: rest => skipLines fuel rest
    | _ => s

/-- White space, line ends and comments. -/
def skipSpace (s : List Char) : List Char := skipLines (s.length + 1) s

def isBare (c : Char) : Bool := c.isAlphanum || c == '-' || c == '_'

def keyPart (s : List Char) : Option (String × List Char) :=
  match s with
  | '"' :: _ | '\'' :: _ => do
    let (name, rest) ← readSingle s
    some (String.ofList name, rest)
  | _ =>
    let name := s.takeWhile isBare
    if name.isEmpty then none else some (String.ofList name, s.drop name.length)

/-- The parts of a key, with dots between them and blanks around them. The fuel bounds their number.
-/
def keyParts : Nat → Scan (List String)
  | 0, _ => none
  | fuel + 1, s => do
    let (name, rest) ← keyPart (skipBlanks s)
    match skipBlanks rest with
    | '.' :: rest => do
      let (names, rest) ← keyParts fuel rest
      some (name :: names, rest)
    | rest => some ([name], rest)

def key : Scan (List String) := keyParts maxDepth

/-- The elements of an array and its closing bracket. The fuel bounds their number. -/
def arrayRest (value : Scan Value) : Nat → Scan (List Value)
  | 0, _ => none
  | fuel + 1, s =>
    match skipSpace s with
    | ']' :: rest => some ([], rest)
    | s => do
      let (v, rest) ← value s
      match skipSpace rest with
      | ',' :: rest => do
        let (vs, rest) ← arrayRest value fuel rest
        some (v :: vs, rest)
      | ']' :: rest => some ([v], rest)
      | _ => none

/-- A key with its value, as far as the value goes. -/
def pair (value : Scan Value) (s : List Char) : Option ((List String × Value) × List Char) := do
  let (keys, rest) ← key s
  let (v, rest) ← value (skipBlanks (← expect '=' rest))
  some ((keys, v), rest)

/-- The pairs of an inline table and its closing brace. The fuel bounds their number. -/
def inlineRest (value : Scan Value) : Nat → Scan (List (List String × Value))
  | 0, _ => none
  | fuel + 1, s => do
    let (p, rest) ← pair value s
    match skipBlanks rest with
    | ',' :: rest => do
      let (ps, rest) ← inlineRest value fuel rest
      some (p :: ps, rest)
    | '\x7d' :: rest => some ([p], rest)
    | _ => none

/-- The pairs of an inline table behind its opening brace. -/
def inlinePairs (value : Scan Value) (s : List Char) :
    Option (List (List String × Value) × List Char) :=
  match skipBlanks s with
  | '\x7d' :: rest => some ([], rest)
  | _ => inlineRest value (s.length + 1) s

def inlineTable (pairs : List (List String × Value)) : Option Value := do
  let members ← pairs.foldlM (fun (ms : Members) p => ms.addPair p.1 p.2) []
  some (.table .inline members)

/-- Reads true or false. -/
def bool : Scan Bool
  | 't' :: 'r' :: 'u' :: 'e' :: rest => some (true, rest)
  | 'f' :: 'a' :: 'l' :: 's' :: 'e' :: rest => some (false, rest)
  | _ => none

/-- Reads a value without parts. What could be a date is one. -/
def scalar (s : List Char) : Option (Value × List Char) :=
  (do let (t, rest) ← readText s; some (.text (String.ofList t), rest))
  <|> (do let (b, rest) ← bool s; some (.bool b, rest))
  <|> (do let (d, rest) ← dateTime s; some (.dateTime d, rest))
  <|> (do let (x, rest) ← float s; some (.float x, rest))
  <|> (do let (n, rest) ← integer s; some (.integer n, rest))

/-- Reads a value in which arrays and inline tables are nested at most so deep. -/
def value : Nat → Scan Value
  | 0 => scalar
  | room + 1 => fun s =>
    match s with
    | '[' :: rest => do
      let (items, rest) ← arrayRest (value room) (rest.length + 1) rest
      some (.array items, rest)
    | '\x7b' :: rest => do
      let (pairs, rest) ← inlinePairs (value room) rest
      some (← inlineTable pairs, rest)
    | s => scalar s

/-- Reads an expression with the rest of its line. -/
def expression (s : List Char) : Option (Expression × List Char) :=
  match s with
  | '[' :: '[' :: rest => do
    let (keys, rest) ← key rest
    let rest ← trailing (← expect ']' (← expect ']' rest))
    some (.element keys, rest)
  | '[' :: rest => do
    let (keys, rest) ← key rest
    let rest ← trailing (← expect ']' rest)
    some (.header keys, rest)
  | s => do
    let ((keys, v), rest) ← pair (value maxDepth) s
    some (.pair keys v, ← trailing rest)

/-- Reads expressions to the end. The fuel bounds the number of lines. -/
def expressionsFrom : Nat → List Char → Option (List Expression)
  | 0, _ => none
  | fuel + 1, s =>
    match skipBlanks s with
    | [] => some []
    | '\n' :: rest => expressionsFrom fuel rest
    | '\r' :: '\n' :: rest => expressionsFrom fuel rest
    | '#' :: rest => do expressionsFrom fuel (← lineEnd (comment ('#' :: rest)))
    | s => do
      let (e, rest) ← expression s
      some (e :: (← expressionsFrom fuel rest))

/-- The expressions of a document, which may begin with a byte order mark. -/
def expressions (s : List Char) : Option (List Expression) :=
  let s := match s with
    | '\uFEFF' :: rest => rest
    | s => s
  expressionsFrom (s.length + 1) s

end TargetQuery.Toml
