import TargetQuery.Json.Reader

/-!
# Number tokens

A number that is kept is exact when it is an integer of 64 bits. Every other number is taken as a
significand of 64 bits, which drops the digits that no longer fit, and a power of ten; the value is
the significand as a binary64 number, multiplied or divided by that power. It is therefore not
always the nearest one, and a number beyond the range is refused.
-/

namespace TargetQuery.Json

def takeDigits (n : Nat) : Bytes → List Nat × Cursor
  | [] => ([], ⟨n, []⟩)
  | b :: rest =>
    if Ascii.isDigit b then
      let (digits, after) := takeDigits (n + 1) rest
      (Ascii.digitValue b :: digits, after)
    else ([], ⟨n, b :: rest⟩)

/-- Appends digits to a number as long as it stays within a bound. The digits that are left over
begin with the first that does not fit. -/
def appendDigits (bound : Nat) : Nat → List Nat → Nat × List Nat
  | n, [] => (n, [])
  | n, d :: digits =>
    if n * 10 + d ≤ bound then appendDigits bound (n * 10 + d) digits else (n, d :: digits)

/-- The greatest significand. -/
def significandBound : Nat := 18446744073709551615

/-- The greatest exponent that is taken at its value. -/
def exponentBound : Nat := 2147483647

def powerOfTen (n : Nat) : Float := Float.ofScientific 1 false n

/-- Divides by a power of ten in steps of the greatest finite one. Three steps bring every
significand to zero. -/
def divideByPower : Nat → Float → Nat → Float
  | 0, f, _ => f
  | fuel + 1, f, e =>
    if e ≤ 308 then f / powerOfTen e
    else if f == 0.0 then f
    else divideByPower fuel (f / powerOfTen 308) (e - 308)

/-- The value of a significand and a power of ten, unless it is beyond the range. -/
def scaled? (significand : Nat) (exponent : Int) : Option Float :=
  let f := Float.ofScientific significand false 0
  if exponent < 0 then some (divideByPower 4 f exponent.natAbs)
  else if 308 < exponent then (if f == 0.0 then some f else none)
  else
    let f := f * powerOfTen exponent.toNat
    if f.isInf then none else some f

/-- The value of a significand and a power of ten with a sign. -/
def floatToken (positive : Bool) (significand : Nat) (exponent : Int) : Reader Number := fun c =>
  match scaled? significand exponent with
  | none => .error ⟨.fault .numberRange, c.offset⟩
  | some f => .ok (.float (if positive then f else -f), c)

def exponentDigits (positive : Bool) (significand : Nat) (start : Int) (up : Bool) :
    Reader Number := fun c =>
  match c.rest with
  | [] => .error ⟨.fault .endInValue, c.offset⟩
  | d :: _ =>
    if !Ascii.isDigit d then .error ⟨.fault .badNumber, c.offset + 1⟩
    else
      let (digits, after) := takeDigits c.offset c.rest
      let (e, left) := appendDigits exponentBound 0 digits
      if left.isEmpty then
        floatToken positive significand (if up then start + e else start - e) after
      else if significand != 0 && up then
        .error ⟨.fault .numberRange, c.offset + (digits.length - left.length) + 1⟩
      else .ok (.float (if positive then 0.0 else -0.0), after)

def exponentPart (positive : Bool) (significand : Nat) (start : Int) : Reader Number := do
  let below ← Reader.peek
  if below == some Ascii.plus || below == some Ascii.minus then Reader.skip
  exponentDigits positive significand start (below != some Ascii.minus)

/-- Behind the digits of a number that is not an integer of 64 bits. -/
def exponentOrEnd (positive : Bool) (significand : Nat) (exponent : Int) : Reader Number := do
  let b ← Reader.peek
  if b == some letterE || b == some capitalE then
    Reader.skip
    exponentPart positive significand exponent
  else floatToken positive significand exponent

def fractionPart (positive : Bool) (significand : Nat) (exponent : Int) : Reader Number := fun c =>
  let (digits, after) := takeDigits c.offset c.rest
  if digits.isEmpty then
    match c.rest with
    | [] => .error ⟨.fault .endInValue, c.offset⟩
    | _ :: _ => .error ⟨.fault .badNumber, c.offset + 1⟩
  else
    let (significand, left) := appendDigits significandBound significand digits
    exponentOrEnd positive significand (exponent - (digits.length - left.length : Nat)) after

/-- Behind the integer part: `dropped` of its digits did not fit the significand. -/
def afterInteger (positive : Bool) (significand dropped : Nat) : Reader Number := do
  let b ← Reader.peek
  if b == some Ascii.dot then
    Reader.skip
    fractionPart positive significand dropped
  else if b == some letterE || b == some capitalE then
    Reader.skip
    exponentPart positive significand dropped
  else if dropped != 0 then floatToken positive significand dropped
  else if positive then pure (.natural significand)
  else if significand == 0 || 9223372036854775808 < significand then
    pure (.float (-(Float.ofScientific significand false 0)))
  else pure (.negative significand)

def numberToken (positive : Bool) : Reader Number := fun c =>
  match c.rest with
  | [] => .error ⟨.fault .endInValue, c.offset⟩
  | d :: rest =>
    if d == Ascii.zero then
      match rest with
      | e :: _ =>
        if Ascii.isDigit e then .error ⟨.fault .badNumber, c.offset + 2⟩
        else afterInteger positive 0 0 ⟨c.offset + 1, rest⟩
      | [] => afterInteger positive 0 0 ⟨c.offset + 1, rest⟩
    else if Ascii.isDigit d then
      let (digits, after) := takeDigits c.offset c.rest
      let (significand, left) := appendDigits significandBound 0 digits
      afterInteger positive significand left.length after
    else .error ⟨.fault .badNumber, c.offset + 1⟩

end TargetQuery.Json
