import TargetQuery.Toml.Value

/-!
# TOML numbers, dates and times

Integers of 64 bits in four bases, binary64 numbers, and dates and times, which are checked and then
kept as they were written. Single underscores may stand between digits.
-/

namespace TargetQuery.Toml

/-- A reader of the start of a text. -/
abbrev Scan (α : Type) := List Char → Option (α × List Char)

def digitOf? (base : Nat) (c : Char) : Option Nat :=
  let n := c.toNat
  let value :=
    if 0x30 ≤ n && n ≤ 0x39 then n - 0x30
    else if 0x41 ≤ n && n ≤ 0x46 then n - 0x37
    else if 0x61 ≤ n && n ≤ 0x66 then n - 0x57
    else base
  if value < base then some value else none

/-- Digits of a base, of which at least one must be there. An underscore must have a digit on each
side; `behind` tells whether a digit stands in front of the text. -/
def digitsFrom (base : Nat) (behind : Bool) : Scan (List Nat)
  | [] => if behind then some ([], []) else none
  | c :: rest =>
    match digitOf? base c with
    | some d =>
      match digitsFrom base true rest with
      | some (ds, rest) => some (d :: ds, rest)
      | none => none
    | none =>
      if !behind then none
      else if c == '_' then digitsFrom base false rest
      else some ([], c :: rest)

/-- Digits of a base with underscores between them. -/
def digits (base : Nat) : Scan (List Nat) := digitsFrom base false

def ofDigits (base : Nat) (ds : List Nat) : Nat := ds.foldl (fun n d => base * n + d) 0

/-- A sign, if one stands in front: whether it is a minus. -/
def sign : List Char → Bool × List Char
  | '+' :: rest => (false, rest)
  | '-' :: rest => (true, rest)
  | s => (false, s)

/-- The digits in front of a point or exponent: a zero stands alone. -/
def wholeDigits : Scan (List Nat)
  | '0' :: rest => some ([0], rest)
  | s => digits 10 s

/-- An integer, unless it does not fit into 64 bits. -/
def integerOf? (negative : Bool) (n : Nat) : Option Int :=
  let value : Int := if negative then -n else n
  if -9223372036854775808 ≤ value && value ≤ 9223372036854775807 then some value else none

def integer (s : List Char) : Option (Int × List Char) :=
  let based (base : Nat) (s : List Char) : Option (Int × List Char) := do
    let (ds, rest) ← digits base s
    let n ← integerOf? false (ofDigits base ds)
    some (n, rest)
  match s with
  | '0' :: 'x' :: rest => based 16 rest
  | '0' :: 'o' :: rest => based 8 rest
  | '0' :: 'b' :: rest => based 2 rest
  | _ => do
    let (negative, s) := sign s
    let (ds, rest) ← wholeDigits s
    let n ← integerOf? negative (ofDigits 10 ds)
    some (n, rest)

def fraction : List Char → Option (Option (List Nat) × List Char)
  | '.' :: rest => do
    let (ds, rest) ← digits 10 rest
    some (some ds, rest)
  | s => some (none, s)

def exponent : List Char → Option (Option Int × List Char)
  | c :: rest =>
    if c == 'e' || c == 'E' then do
      let (negative, s) := sign rest
      let (ds, rest) ← digits 10 s
      let n : Int := ofDigits 10 ds
      some (some (if negative then -n else n), rest)
    else some (none, c :: rest)
  | [] => some (none, [])

/-- The binary64 number nearest to `n * 10 ^ e`. Beyond four hundred digits before or behind the
point the outcome is settled without computing a power. -/
def nearest (n : Nat) (e : Int) : Float :=
  let lead := (Nat.toDigits 10 n).length + e
  if n == 0 then 0.0
  else if 400 < lead then 1.0 / 0.0
  else if lead < -400 then 0.0
  else if 0 ≤ e then Float.ofScientific n false e.toNat
  else Float.ofScientific n true (-e).toNat

/-- Infinity and the value that is no number. -/
def specialFloat : Scan Float
  | 'i' :: 'n' :: 'f' :: rest => some (1.0 / 0.0, rest)
  | 'n' :: 'a' :: 'n' :: rest => some (0.0 / 0.0, rest)
  | _ => none

/-- Reads a number with a point or an exponent. What is too large is refused, unless it has a minus.
-/
def float (s : List Char) : Option (Float × List Char) := do
  let (negative, s) := sign s
  let signed (x : Float) : Float := if negative then -x else x
  match specialFloat s with
  | some (x, rest) => some (signed x, rest)
  | none =>
    let (whole, rest) ← wholeDigits s
    let (places, rest) ← fraction rest
    let (power, rest) ← exponent rest
    if places.isNone && power.isNone then none
    else
      let behind := places.getD []
      let x := nearest (ofDigits 10 (whole ++ behind)) (power.getD 0 - behind.length)
      if x.isInf && !negative then none else some (signed x, rest)

/-! ### Dates and times -/

/-- A number of exactly so many digits within bounds. -/
def fixed (width low high : Nat) (s : List Char) : Option (Nat × List Char) := do
  let ds ← (s.take width).mapM (digitOf? 10)
  let n := ofDigits 10 ds
  if ds.length == width && low ≤ n && n ≤ high then some (n, s.drop width) else none

def expect (c : Char) : List Char → Option (List Char)
  | d :: rest => if d == c then some rest else none
  | [] => none

def daysIn (year month : Nat) : Nat :=
  if month == 2 then
    if year % 4 == 0 && (year % 100 != 0 || year % 400 == 0) then 29 else 28
  else if month == 4 || month == 6 || month == 9 || month == 11 then 30
  else 31

def date (s : List Char) : Option (List Char) := do
  let (year, s) ← fixed 4 0 9999 s
  let (month, s) ← fixed 2 1 12 (← expect '-' s)
  let (_, s) ← fixed 2 1 (daysIn year month) (← expect '-' s)
  some s

def time (s : List Char) : Option (List Char) := do
  let (_, s) ← fixed 2 0 23 s
  let (_, s) ← fixed 2 0 59 (← expect ':' s)
  let (_, s) ← fixed 2 0 60 (← expect ':' s)
  match s with
  | '.' :: rest =>
    let places := rest.takeWhile Char.isDigit
    if places.isEmpty then some s else some (rest.drop places.length)
  | _ => some s

/-- Passes an offset from universal time, if one is there. -/
def offset (s : List Char) : Option (List Char) :=
  match s with
  | 'Z' :: rest | 'z' :: rest => some rest
  | '+' :: rest | '-' :: rest => do
    let (_, s) ← fixed 2 0 23 rest
    let (_, s) ← fixed 2 0 59 (← expect ':' s)
    some s
  | _ => some s

/-- Passes the time behind a date, if one is there. -/
def timeBehind (s : List Char) : Option (List Char) :=
  match s with
  | c :: rest =>
    if c == 'T' || c == 't' || c == ' ' then
      match time rest with
      | some s => offset s
      | none => some s
    else some s
  | [] => some []

def dateTime (s : List Char) : Option (String × List Char) := do
  let rest ← match date s with
    | some rest => timeBehind rest
    | none => time s
  some (String.ofList (s.take (s.length - rest.length)), rest)

end TargetQuery.Toml
