import TargetQuery.Text.Printable

/-!
# Quoted text

A string between double quotes, as messages show it: quotes, backslashes and the common control
characters behind a backslash, other characters that have no glyph of their own by number.
-/

namespace TargetQuery.Quoted

/-- A character by number, in lower-case hexadecimal without leading zeros. -/
def byNumber (c : Char) : List Char :=
  ['\\', 'u', Char.ofNat 0x7B] ++ Nat.toDigits 16 c.toNat ++ [Char.ofNat 0x7D]

def escape (c : Char) : List Char :=
  if c == Char.ofNat 0 then ['\\', '0']
  else if c == '\t' then ['\\', 't']
  else if c == '\r' then ['\\', 'r']
  else if c == '\n' then ['\\', 'n']
  else if c == '\\' then ['\\', '\\']
  else if c == '"' then ['\\', '"']
  else if Printable.hasOwnGlyph c then [c]
  else byNumber c

def render (s : String) : String :=
  String.ofList (['"'] ++ s.toList.flatMap escape ++ ['"'])

end TargetQuery.Quoted
