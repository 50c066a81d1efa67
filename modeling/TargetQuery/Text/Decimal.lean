/-!
# Shortest decimals

The text of a binary64 number: the fewest decimal digits that identify it among all such numbers,
then their layout. The digits are selected by exact arithmetic on naturals. Which exponents are
written positionally, and which way a tie between two equally close candidates goes, is decided by
the caller in a `Style`.
-/

namespace TargetQuery.Decimal

/-- A finite value without its sign, `significand * 2 ^ exponent`. -/
structure Binary where
  significand : Nat
  exponent : Int
  /-- The neighbour below is half as far away as the neighbour above. -/
  narrowBelow : Bool

/-- The magnitude of a finite number, from its bits. -/
def Binary.ofBits (bits : UInt64) : Binary :=
  let biased := ((bits >>> 52) &&& 0x7FF).toNat
  let fraction := (bits &&& 0xFFFFFFFFFFFFF).toNat
  if biased == 0 then ⟨fraction, -1074, false⟩
  else ⟨Nat.pow 2 52 + fraction, (biased : Int) - 1075, fraction == 0 && biased > 1⟩

/-- A decimal, `digits * 10 ^ exponent`. -/
structure Scaled where
  digits : Nat
  exponent : Int
deriving DecidableEq, Repr

/-- Where a tie between two equally close candidates goes. -/
inductive Tie where
  | even
  | up
deriving DecidableEq, Repr

/-- Compares a decimal with `n * 2 ^ k`, exactly. -/
def Scaled.compareBinary (d : Scaled) (n : Nat) (k : Int) : Ordering :=
  compare (d.digits * Nat.pow 10 d.exponent.toNat * Nat.pow 2 (-k).toNat)
    (n * Nat.pow 2 k.toNat * Nat.pow 10 (-d.exponent).toNat)

/-- The decimal lies among the reals that round to `x`: between the midpoints to its neighbours,
which count themselves exactly when the significand is even. -/
def Binary.covers (x : Binary) (d : Scaled) : Bool :=
  let low := if x.narrowBelow then 4 * x.significand - 1 else 4 * x.significand - 2
  let high := 4 * x.significand + 2
  let closed := x.significand % 2 == 0
  let below := d.compareBinary low (x.exponent - 2)
  let above := d.compareBinary high (x.exponent - 2)
  (below == .gt || (closed && below == .eq)) && (above == .lt || (closed && above == .eq))

/-- The number of decimal digits of a natural number; zero has one. -/
def digitCount (n : Nat) : Nat := (Nat.toDigits 10 n).length

/-- The least `k` for which the positive fraction is below `10 ^ k`. -/
def scaleOf (num den : Nat) : Int :=
  if den ≤ num then digitCount (num / den)
  else 1 - (digitCount ((den - 1) / num) : Int)

/-- Drops trailing zeros into the exponent, at most `fuel` of them. -/
def Scaled.strip : Nat → Scaled → Scaled
  | 0, d => d
  | fuel + 1, d =>
    if d.digits != 0 && d.digits % 10 == 0 then strip fuel ⟨d.digits / 10, d.exponent + 1⟩ else d

/-- The best decimal of at most `n` digits for the fraction, if one identifies it. -/
def Binary.candidate? (x : Binary) (tie : Tie) (num den : Nat) (scale : Int) (n : Nat) :
    Option Scaled :=
  let e := scale - n
  let num := num * Nat.pow 10 (-e).toNat
  let den := den * Nat.pow 10 e.toNat
  let floor := num / den
  let lower : Scaled := ⟨floor, e⟩
  let upper : Scaled := ⟨floor + 1, e⟩
  match x.covers lower, x.covers upper with
  | false, false => none
  | true, false => some lower
  | false, true => some upper
  | true, true =>
    match compare (2 * num) ((2 * floor + 1) * den) with
    | .lt => some lower
    | .gt => some upper
    | .eq => some (if tie == .even && floor % 2 == 0 then lower else upper)

/-- The fewest digits that identify a positive value, and of those the nearest. -/
def Binary.shortest (x : Binary) (tie : Tie) : Scaled :=
  let num := x.significand * Nat.pow 2 x.exponent.toNat
  let den := Nat.pow 2 (-x.exponent).toNat
  let scale := scaleOf num den
  let found := (List.range 17).findSome? fun i => x.candidate? tie num den scale (i + 1)
  -- Seventeen digits are known to suffice; the exact value stands in for a proof of it.
  let places := (-x.exponent).toNat
  (found.getD ⟨num * Nat.pow 10 places / den, -places⟩).strip 400

/-- How a number is laid out. -/
structure Style where
  /-- The exponents of the leading digit that are written positionally. -/
  positional : Int → Bool
  tie : Tie

def zeros (n : Nat) : String := String.ofList (List.replicate n '0')

/-- Digits with a point, and at least one digit on each side of it. -/
def Scaled.positional (d : Scaled) : String :=
  let digits := Nat.toDigits 10 d.digits
  if 0 ≤ d.exponent then String.ofList digits ++ zeros d.exponent.toNat ++ ".0"
  else
    let places := (-d.exponent).toNat
    if places < digits.length then
      String.ofList (digits.take (digits.length - places)) ++ "."
        ++ String.ofList (digits.drop (digits.length - places))
    else "0." ++ zeros (places - digits.length) ++ String.ofList digits

/-- One digit before the point, and an exponent with its sign. -/
def Scaled.scientific (d : Scaled) : String :=
  let digits := Nat.toDigits 10 d.digits
  let exponent := d.exponent + digits.length - 1
  let mantissa := match digits with
    | [] => ""
    | [c] => String.ofList [c]
    | c :: rest => String.ofList [c] ++ "." ++ String.ofList rest
  mantissa ++ (if exponent < 0 then "e-" else "e+") ++ toString exponent.natAbs

/-- The text of a finite positive value. -/
def Style.positive (style : Style) (x : Binary) : String :=
  let d := x.shortest style.tie
  let lead := d.exponent + digitCount d.digits - 1
  if style.positional lead then d.positional else d.scientific

def Style.render (style : Style) (x : Float) : String :=
  let bits := x.toBits
  if x.isNaN then "NaN"
  else
    let sign := if bits >>> 63 == 1 then "-" else ""
    if x.isInf then sign ++ "inf"
    else
      let binary := Binary.ofBits bits
      sign ++ (if binary.significand == 0 then "0.0" else style.positive binary)

/-- Positional for leading digits from the fifth place after the point up to the sixteenth before
it. -/
def compact : Style := ⟨fun e => -5 ≤ e && e < 16, .even⟩

def plain : Style := ⟨fun _ => true, .up⟩

end TargetQuery.Decimal
