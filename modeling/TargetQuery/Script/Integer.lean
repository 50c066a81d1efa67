import TargetQuery.Script.Chars

/-!
# Whole numbers

Numbers as scripts and utilities read them: white space and a sign in front, and sixty-four bits.
Where the base is open, a leading `0x` means hexadecimal and a leading zero octal.
-/

namespace TargetQuery.Script

/-- A number that has been read from a text. -/
structure IntegerRead where
  negative : Bool
  /-- The number without its sign. -/
  size : Nat
  /-- Whether there were any digits. -/
  found : Bool
  rest : Chars

namespace IntegerRead

/-- The least and the greatest number of sixty-four bits. -/
def least : Int := -9223372036854775808

def greatest : Int := 9223372036854775807

def whole (r : IntegerRead) : Int := if r.negative then -r.size else r.size

def value (r : IntegerRead) : Int := max least (min greatest r.whole)

def isBeyond (r : IntegerRead) : Bool := r.value != r.whole

/-- The bits of the number as one without a sign, all set if there are too many. -/
def bits (r : IntegerRead) : Nat :=
  if UInt64.size ≤ r.size then UInt64.size - 1
  else if r.negative then (UInt64.size - r.size) % UInt64.size
  else r.size

/-- The base that a number shows, and its digits with what follows them. -/
def baseOf : Chars → Nat × Chars
  | '0' :: x :: d :: rest =>
    if (x == 'x' || x == 'X') && isDigitTo 16 d then (16, d :: rest) else (8, '0' :: x :: d :: rest)
  | '0' :: rest => (8, '0' :: rest)
  | s => (10, s)

/-- Reads a number that a text begins with. The base is open if none is given. -/
def ofChars (base? : Option Nat) (s : Chars) : IntegerRead :=
  let body := s.dropWhile isSpace
  let (negative, body) := match body with
    | '-' :: rest => (true, rest)
    | '+' :: rest => (false, rest)
    | rest => (false, rest)
  let (base, body) := match base? with
    | some base => (base, body)
    | none => baseOf body
  let digits := body.takeWhile (isDigitTo base)
  { negative
    size := ofDigits base digits
    found := !digits.isEmpty
    rest := if digits.isEmpty then s else body.drop digits.length }

end IntegerRead

/-- A text that is a number and nothing else, apart from white space around it. Without an open base
there must be a digit. -/
def integer? (base? : Option Nat) (s : Chars) : Option Int :=
  let r := IntegerRead.ofChars base? s
  let rest := if r.found then r.rest else s.dropWhile isSpace
  if r.isBeyond || (base?.isSome && !r.found) || !(rest.dropWhile isSpace).isEmpty then none
  else some r.value

/-- A text that is a number of any size and nothing else, apart from white space around it. -/
def whole? (s : Chars) : Option Int :=
  let r := IntegerRead.ofChars (some 10) s
  if r.found && (r.rest.dropWhile isSpace).isEmpty then some r.whole else none

def inBase (base n : Nat) : Chars := Nat.toDigits base n

end TargetQuery.Script
