import TargetQuery.Text.Utf8

/-!
# Characters of scripts

A script is read byte by byte: each byte is taken as the character of the same number, so that
lengths, patterns and comparisons count bytes. Texts of scripts are lists of such characters.
-/

namespace TargetQuery.Script

/-- A text whose characters stand for bytes. -/
abbrev Chars := List Char

def ascii (s : String) : Bytes := Utf8.encode s

def toBytes (s : Chars) : Bytes := s.map fun c => UInt8.ofNat c.toNat

def ofBytes (s : Bytes) : Chars := s.map fun b => Char.ofNat b.toNat

def ofNat (n : Nat) : Chars := (toString n).toList

def isNameStart (c : Char) : Bool := c.isAlpha || c == '_'

def isNameChar (c : Char) : Bool := c.isAlphanum || c == '_'

def isName : Chars → Bool
  | [] => false
  | c :: rest => isNameStart c && rest.all isNameChar

def isBlank (c : Char) : Bool := c == ' ' || c == '\t'

/-- White space as programs skip it in front of numbers. -/
def isSpace (c : Char) : Bool := c == ' ' || (9 ≤ c.toNat && c.toNat ≤ 13)

def ofDigits (base : Nat) (s : Chars) : Nat :=
  s.foldl (fun n c => n * base + ((Ascii.hexValue? (UInt8.ofNat c.toNat)).getD 0)) 0

def isDigitTo (base : Nat) (c : Char) : Bool :=
  match Ascii.hexValue? (UInt8.ofNat c.toNat) with
  | some n => n < base && c.toNat < 128
  | none => false

/-- The number that a text is in decimal, if it is nothing else. -/
def natural? (s : Chars) : Option Nat :=
  if !s.isEmpty && s.all Char.isDigit then some (ofDigits 10 s) else none

/-- Cuts a text at a character. There is one more piece than there are such characters. -/
def splitAt (c : Char) (s : Chars) : List Chars :=
  let (last, pieces) := s.foldr (fun d (piece, pieces) =>
    if d == c then ([], piece :: pieces) else (d :: piece, pieces)) ([], [])
  last :: pieces

def linesOf (s : Bytes) : List Bytes :=
  let (last, lines) := s.foldr (fun b (line, lines) =>
    if b == Ascii.newline then ([b], if line.isEmpty then lines else line :: lines)
    else (b :: line, lines)) ([], [])
  if last.isEmpty then lines else last :: lines

namespace Utility

def isSafe (c : Char) : Bool :=
  c.isAlphanum || "%+,-./:@_^=#~\x7b\x7d".toList.contains c || 128 ≤ c.toNat

/-- A name in a message, in quotes if it would be misread without them. -/
def shown (name : Chars) : Chars :=
  if !name.isEmpty && name.all isSafe && name.head? != some '#' && name.head? != some '~' then name
  else if name.contains '\'' && !name.contains '"' then ['"'] ++ name ++ ['"']
  else ['\''] ++ name ++ ['\'']

def quoted (name : Chars) : Chars := ['\''] ++ name ++ ['\'']

end Utility

end TargetQuery.Script
