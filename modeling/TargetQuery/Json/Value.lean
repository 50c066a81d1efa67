import TargetQuery.Text.Utf8

/-!
# Written values

The values that the library writes as JSON, and their two texts: the compact one without white
space, and the pretty one with a member or element a line, indented by two spaces a level.
-/

namespace TargetQuery.Json

inductive Value where
  | null
  | bool (b : Bool)
  | text (s : String)
  | list (items : List Value)
  | object (members : List (String × Value))

/-- Why a value cannot be written. -/
inductive WriteError where
  /-- A path is not UTF-8, and JSON text is. -/
  | pathNotUnicode
deriving DecidableEq, Repr

def WriteError.message : WriteError → String
  | .pathNotUnicode => "path contains invalid UTF-8 characters"

namespace Value

/-- Four lower-case hexadecimal digits. -/
def hexQuad (n : Nat) : List Char :=
  let digits := Nat.toDigits 16 n
  List.replicate (4 - digits.length) '0' ++ digits

def escapeChar (c : Char) : List Char :=
  if c == '"' then ['\\', '"']
  else if c == '\\' then ['\\', '\\']
  else if c == Char.ofNat 0x08 then ['\\', 'b']
  else if c == Char.ofNat 0x0C then ['\\', 'f']
  else if c == '\n' then ['\\', 'n']
  else if c == '\r' then ['\\', 'r']
  else if c == '\t' then ['\\', 't']
  else if c.toNat < 0x20 then ['\\', 'u'] ++ hexQuad c.toNat
  else [c]

def quote (s : String) : List Char := '"' :: s.toList.flatMap escapeChar ++ ['"']

mutual

/-- The text without white space. -/
def compact : Value → List Char
  | .null => "null".toList
  | .bool b => (if b then "true" else "false").toList
  | .text s => quote s
  | .list items => '[' :: compactItems items ++ [']']
  | .object members => Char.ofNat 0x7B :: compactMembers members ++ [Char.ofNat 0x7D]

def compactItems : List Value → List Char
  | [] => []
  | [v] => compact v
  | v :: more => compact v ++ ',' :: compactItems more

def compactMembers : List (String × Value) → List Char
  | [] => []
  | [(name, v)] => quote name ++ ':' :: compact v
  | (name, v) :: more => quote name ++ ':' :: compact v ++ ',' :: compactMembers more

end

/-- A new line with so many levels of indentation. -/
def newLine (level : Nat) : List Char := '\n' :: List.replicate (2 * level) ' '

mutual

def pretty (level : Nat) : Value → List Char
  | .null => "null".toList
  | .bool b => (if b then "true" else "false").toList
  | .text s => quote s
  | .list [] => ['[', ']']
  | .list items => '[' :: prettyItems (level + 1) items ++ newLine level ++ [']']
  | .object [] => [Char.ofNat 0x7B, Char.ofNat 0x7D]
  | .object members =>
    Char.ofNat 0x7B :: prettyMembers (level + 1) members ++ newLine level ++ [Char.ofNat 0x7D]

def prettyItems (level : Nat) : List Value → List Char
  | [] => []
  | [v] => newLine level ++ pretty level v
  | v :: more => newLine level ++ pretty level v ++ ',' :: prettyItems level more

def prettyMembers (level : Nat) : List (String × Value) → List Char
  | [] => []
  | [(name, v)] => newLine level ++ quote name ++ ':' :: ' ' :: pretty level v
  | (name, v) :: more =>
    newLine level ++ quote name ++ ':' :: ' ' :: pretty level v ++ ',' :: prettyMembers level more

end

def toCompact (v : Value) : String := String.ofList v.compact

def toPretty (v : Value) : String := String.ofList (v.pretty 0)

end Value

end TargetQuery.Json
