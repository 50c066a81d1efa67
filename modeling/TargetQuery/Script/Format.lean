import TargetQuery.Script.Integer
import TargetQuery.Text.Decimal

/-!
# Formats

Text with directives, each of which shows an argument: as text, as a number or as a character, to a
width and a precision. The command of the shell and the utility of the machine share them, but for a
few escapes and their messages.
-/

namespace TargetQuery.Script

/-! ### Escapes -/

def escapeLetter? : Char → Option Char
  | 'a' => some (Char.ofNat 7)
  | 'b' => some (Char.ofNat 8)
  | 'e' => some (Char.ofNat 27)
  | 'f' => some (Char.ofNat 12)
  | 'n' => some '\n'
  | 'r' => some '\r'
  | 't' => some '\t'
  | 'v' => some (Char.ofNat 11)
  | '\\' => some '\\'
  | _ => none

structure EscapeStyle where
  /-- By the utility, which knows hexadecimal numbers. -/
  isUtility : Bool := false
  /-- An octal number may have a zero in front of its three digits, and a letter ends the output. -/
  isArgument : Bool := true
  /-- An octal number must have a zero in front. -/
  needsZero : Bool := false

def digitsUpTo (base count : Nat) (s : Chars) : Chars :=
  (s.take count).takeWhile (isDigitTo base)

/-- What a backslash and the text behind it stand for, and what is left. Nothing is left to be shown
at all if there is no text. -/
def escape (style : EscapeStyle) (s : Chars) : Option (Chars × Chars) :=
  let number (base count : Nat) (s : Chars) : Option (Chars × Chars) :=
    let digits := digitsUpTo base count s
    some ([Char.ofNat (ofDigits base digits % 256)], s.drop digits.length)
  match s with
  | [] => some (['\\'], [])
  | c :: rest =>
    if c == 'c' && (style.isArgument || style.isUtility) then none
    else if c == '0' && style.isArgument && (digitsUpTo 8 1 rest).length == 1 then number 8 3 rest
    else if isDigitTo 8 c && (c == '0' || !style.needsZero) then number 8 3 s
    else if style.isUtility && c == 'x' && (digitsUpTo 16 1 rest).length == 1 then number 16 2 rest
    else if style.isUtility && !style.isArgument && c == '"' then some (['"'], rest)
    else match escapeLetter? c with
      | some e => some ([e], rest)
      | none => some (['\\', c], rest)

/-- A text with its escapes replaced, and whether all that follows is to be left out. The fuel
bounds its length. -/
def unescape (style : EscapeStyle) : Nat → Chars → Chars → Chars × Bool
  | 0, done, _ => (done.reverse, false)
  | _ + 1, done, [] => (done.reverse, false)
  | fuel + 1, done, '\\' :: rest =>
    match escape style rest with
    | none => (done.reverse, true)
    | some (shown, rest) => unescape style fuel (shown.reverse ++ done) rest
  | fuel + 1, done, c :: rest => unescape style fuel (c :: done) rest

/-! ### Directives -/

structure Directive where
  flags : Chars := []
  width : Nat := 0
  precision? : Option Nat := none
  kind : Char

namespace Directive

def fill (d : Directive) (s : Chars) : Chars :=
  let missing := List.replicate (d.width - s.length) ' '
  if d.flags.contains '-' then s ++ missing else missing ++ s

/-- A number of which the sign and the digits are given, filled up to the width; with zeros between
them if the flags say so. -/
def fillNumber (d : Directive) (zeros : Bool) (sign digits : Chars) : Chars :=
  if zeros && d.flags.contains '0' && !d.flags.contains '-' then
    sign ++ List.replicate (d.width - sign.length - digits.length) '0' ++ digits
  else d.fill (sign ++ digits)

def sign (d : Directive) (negative : Bool) : Chars :=
  if negative then ['-'] else if d.flags.contains '+' then ['+']
  else if d.flags.contains ' ' then [' '] else []

/-- A text, or as much of it as the precision allows. -/
def showText (d : Directive) (s : Chars) : Chars :=
  d.fill ((d.precision?.map s.take).getD s)

/-- At least as many digits as the precision asks for; none for a zero if it asks for none. -/
def digitsOf (d : Directive) (base n : Nat) : Chars :=
  match d.precision? with
  | none => inBase base n
  | some p =>
    let digits := if n == 0 then [] else inBase base n
    List.replicate (p - digits.length) '0' ++ digits

def showInteger (d : Directive) (n : Int) : Chars :=
  d.fillNumber d.precision?.isNone (d.sign (n < 0)) (d.digitsOf 10 n.natAbs)

def showBits (d : Directive) (n : Nat) : Chars :=
  let marked := d.flags.contains '#' && n != 0
  match d.kind with
  | 'o' =>
    let digits := d.digitsOf 8 n
    let digits := if d.flags.contains '#' && digits.head? != some '0' then '0' :: digits else digits
    d.fillNumber d.precision?.isNone [] digits
  | 'x' => d.fillNumber d.precision?.isNone (if marked then ['0', 'x'] else []) (d.digitsOf 16 n)
  | 'X' =>
    let digits := (d.digitsOf 16 n).map Char.toUpper
    d.fillNumber d.precision?.isNone (if marked then ['0', 'X'] else []) digits
  | _ => d.fillNumber d.precision?.isNone [] (d.digitsOf 10 n)

/-! ### Fractions -/

/-- A quotient rounded to a whole number; a half goes to the even neighbour. -/
def roundedQuotient (num den : Nat) : Nat :=
  let q := num / den
  let twice := 2 * (num % den)
  if den < twice || (twice == den && q % 2 == 1) then q + 1 else q

def fixed (places : Nat) (point : Bool) (num den : Nat) : Chars :=
  let digits := ofNat (roundedQuotient (num * Nat.pow 10 places) den)
  let digits := List.replicate (places + 1 - digits.length) '0' ++ digits
  let whole := digits.take (digits.length - places)
  whole ++ (if places == 0 && !point then [] else ['.']) ++ digits.drop whole.length

/-- The digits of a fraction, one in front of the point and so many behind it, and the power of ten
that they are multiplied with. -/
def scaled (places num den : Nat) : Nat × Int :=
  if num == 0 then (0, 0)
  else
    let power := Decimal.scaleOf num den - 1
    let shift := (places : Int) - power
    let n := roundedQuotient (num * Nat.pow 10 shift.toNat) (den * Nat.pow 10 (-shift).toNat)
    if Nat.pow 10 (places + 1) ≤ n then (n / 10, power + 1) else (n, power)

def exponentText (power : Int) : Chars :=
  let digits := ofNat power.natAbs
  'e' :: (if power < 0 then '-' else '+') :: List.replicate (2 - digits.length) '0' ++ digits

def scientific (places : Nat) (point : Bool) (num den : Nat) : Chars :=
  let (n, power) := scaled places num den
  let digits := ofNat n
  let digits := digits ++ List.replicate (places + 1 - digits.length) '0'
  digits.take 1 ++ (if places == 0 && !point then [] else ['.']) ++ digits.drop 1
    ++ exponentText power

/-- A text without zeros behind its point, and without a point at its end. -/
def withoutZeros (s : Chars) : Chars :=
  if s.contains '.' then
    let kept := s.reverse.dropWhile (· == '0')
    (if kept.head? == some '.' then kept.drop 1 else kept).reverse
  else s

def general (precision : Nat) (marked : Bool) (num den : Nat) : Chars :=
  let p := max precision 1
  let (_, power) := scaled (p - 1) num den
  let clean (s : Chars) : Chars := if marked then s else withoutZeros s
  if power < -4 || (p : Int) ≤ power then
    let s := scientific (p - 1) marked num den
    let front := s.takeWhile (· != 'e')
    clean front ++ s.drop front.length
  else clean (fixed ((p : Int) - 1 - power).toNat marked num den)

def showFraction (d : Directive) (x : Float) : Chars :=
  let bits := x.toBits
  let sign := d.sign (bits >>> 63 == 1)
  let kind := d.kind.toLower
  let upper (s : Chars) : Chars := if d.kind == kind then s else s.map Char.toUpper
  if (bits >>> 52) &&& 0x7FF == 0x7FF then
    d.fill (sign ++ upper (if bits &&& 0xFFFFFFFFFFFFF == 0 then "inf".toList else "nan".toList))
  else
    let b := Decimal.Binary.ofBits bits
    let num := b.significand * Nat.pow 2 b.exponent.toNat
    let den := Nat.pow 2 (-b.exponent).toNat
    let precision := d.precision?.getD 6
    let marked := d.flags.contains '#'
    let digits := match kind with
      | 'f' => fixed precision marked num den
      | 'e' => scientific precision marked num den
      | _ => general precision marked num den
    d.fillNumber true sign (upper digits)

end Directive

/-! ### Formats -/

structure Formatting where
  isUtility : Bool
  arguments : List Chars
  /-- What has been shown, the last character first. -/
  shown : Chars := []
  /-- What is wrong with arguments, the latest first. -/
  complaints : List Chars := []
  failed : Bool := false
  /-- Whether nothing more is to be shown, and why, if that is an error. -/
  isOver : Bool := false
  error? : Option Chars := none

namespace Formatting

def next (k : Formatting) : Option Chars × Formatting :=
  (k.arguments.head?, { k with arguments := k.arguments.tail })

def emit (k : Formatting) (s : Chars) : Formatting := { k with shown := s.reverse ++ k.shown }

def blame (k : Formatting) (argument : Chars) (why inUtility : String) : Formatting :=
  let text := if k.isUtility then ['\''] ++ argument ++ "': ".toList ++ inUtility.toList
    else argument ++ ": ".toList ++ why.toList
  { k with complaints := text :: k.complaints, failed := true }

/-- Complains about an argument of which only a part is a number. -/
def blameRest (k : Formatting) (argument : Chars) (found isBeyond : Bool) (rest : Chars) :
    Formatting :=
  if !rest.isEmpty && !found then
    k.blame argument "expected numeric value" "expected a numeric value"
  else if !rest.isEmpty then
    k.blame argument "not completely converted" "value not completely converted"
  else if isBeyond then
    k.blame argument "Numerical result out of range" "Numerical result out of range"
  else k

def quotedCode? (k : Formatting) (argument : Chars) : Option (Nat × Formatting) :=
  match argument with
  | q :: c :: rest =>
    if q == '"' || q == '\'' then
      if k.isUtility && !rest.isEmpty then
        let text := "warning: ".toList ++ rest
          ++ ": character(s) following character constant have been ignored".toList
        some (c.toNat, { k with complaints := text :: k.complaints })
      else some (c.toNat, k)
    else none
  | _ => none

/-- The next argument as a number: with its sign, and by its bits. -/
def nextInteger (k : Formatting) (signed : Bool) : Int × Nat × Formatting :=
  let (argument?, k) := k.next
  match argument? with
  | none => (0, 0, k)
  | some argument =>
    match k.quotedCode? argument with
    | some (n, k) => (n, n, k)
    | none =>
      let r := IntegerRead.ofChars none argument
      let isBeyond := if signed then r.isBeyond else UInt64.size ≤ r.size
      let rest := if r.found then r.rest else argument
      (r.value, r.bits, k.blameRest argument r.found isBeyond rest)

def nextFraction (k : Formatting) : Float × Formatting :=
  let (argument?, k) := k.next
  match argument? with
  | none => (0, k)
  | some argument =>
    match k.quotedCode? argument with
    | some (n, k) => (Float.ofNat n, k)
    | none =>
      let body := argument.dropWhile isSpace
      let (negative, body) := match body with
        | '-' :: rest => (true, rest)
        | '+' :: rest => (false, rest)
        | rest => (false, rest)
      let whole := body.takeWhile Char.isDigit
      let rest := body.drop whole.length
      let (places, rest) := match rest with
        | '.' :: more =>
          let places := more.takeWhile Char.isDigit
          if whole.isEmpty && places.isEmpty then ([], rest) else (places, more.drop places.length)
        | rest => ([], rest)
      let found := !(whole.isEmpty && places.isEmpty)
      let (power, rest) := match rest with
        | e :: more =>
          let r := IntegerRead.ofChars (some 10) more
          let direct := !(more.head?.any isSpace)
          if found && (e == 'e' || e == 'E') && r.found && direct then (r.whole, r.rest)
          else (0, rest)
        | [] => (0, [])
      let power := max (-5000) (min 5000 power) - places.length
      let size := Float.ofScientific (ofDigits 10 (whole ++ places)) (power < 0) power.natAbs
      (if negative then -size else size,
        k.blameRest argument found false (if found then rest else argument))

def fail (k : Formatting) (why : Chars) : Formatting :=
  { k with isOver := true, failed := true, error? := some why }

/-- A number in a directive, or the next argument if a star stands for it. -/
def measure (k : Formatting) (s : Chars) : Option Int × Chars × Formatting :=
  match s with
  | '*' :: rest =>
    let (n, _, k) := k.nextInteger true
    (some n, rest, k)
  | s =>
    let digits := s.takeWhile Char.isDigit
    (if digits.isEmpty then none else some (ofDigits 10 digits : Nat), s.drop digits.length, k)

/-- Shows the next argument as a directive says. -/
def convert (k : Formatting) (d : Directive) : Formatting :=
  if d.kind == 's' then
    let (argument, k) := k.next
    k.emit (d.showText (argument.getD []))
  else if d.kind == 'q' then
    let (argument, k) := k.next
    k.emit (Utility.shown (argument.getD []))
  else if d.kind == 'b' then
    let (argument, k) := k.next
    let argument := argument.getD []
    let style : EscapeStyle := { isUtility := k.isUtility }
    let (text, isOver) := unescape style (argument.length + 1) [] argument
    { k.emit (d.showText text) with isOver }
  else if d.kind == 'c' then
    let (argument, k) := k.next
    let text := match argument.getD [] with
      | c :: _ => [c]
      | [] => if k.isUtility && argument.isNone then [] else [Char.ofNat 0]
    k.emit (d.fill text)
  else if d.kind == 'd' || d.kind == 'i' then
    let (n, _, k) := k.nextInteger true
    k.emit (d.showInteger n)
  else if "ouxX".toList.contains d.kind then
    let (_, n, k) := k.nextInteger false
    k.emit (d.showBits n)
  else
    let (x, k) := k.nextFraction
    k.emit (d.showFraction x)

/-- The kinds of directives; the utility can also quote a text. -/
def kinds (k : Formatting) : Chars :=
  "sbcdiouxXeEfFgG".toList ++ (if k.isUtility then ['q'] else [])

/-- Letters for the size of a number, which the utility passes over. -/
def withoutSizes (k : Formatting) (s : Chars) : Chars :=
  if k.isUtility then s.dropWhile fun c => "hlLjzt".toList.contains c else s

/-- A directive, of which the text behind the percent sign is given, and what follows it. -/
def directive (k : Formatting) (s : Chars) : Chars × Formatting :=
  let flags := s.takeWhile "#-+ 0".toList.contains
  let (width, rest, k) := k.measure (s.drop flags.length)
  let (precision?, rest, k) := match rest with
    | '.' :: rest =>
      let (n, rest, k) := k.measure rest
      (some (n.getD 0), rest, k)
    | rest => (none, rest, k)
  let flags := if (width.getD 0) < 0 then '-' :: flags else flags
  let precision? := precision?.bind fun p => if p < 0 then none else some p.toNat
  let written (rest : Chars) : Chars := '%' :: s.take (s.length - rest.length)
  match k.withoutSizes rest with
  | [] =>
    if k.isUtility then ([], k.fail (written [] ++ ": invalid conversion specification".toList))
    else ([], k.fail "missing format character".toList)
  | kind :: rest =>
    if k.kinds.contains kind then
      (rest, k.convert { flags, width := (width.getD 0).natAbs, precision?, kind })
    else
      let why := if k.isUtility then ": invalid conversion specification" else ": invalid directive"
      ([], k.fail (written rest ++ why.toList))

/-- One pass through a format. The fuel bounds its length. -/
def pass : Nat → Chars → Formatting → Formatting
  | 0, _, k => k
  | _ + 1, [], k => k
  | fuel + 1, c :: rest, k =>
    if k.isOver then k
    else if c == '\\' then
      match escape { isUtility := k.isUtility, isArgument := false } rest with
      | none => { k with isOver := true }
      | some (text, rest) => pass fuel rest (k.emit text)
    else if c == '%' then
      match rest with
      | '%' :: rest => pass fuel rest (k.emit ['%'])
      | rest =>
        let (rest, k) := k.directive rest
        pass fuel rest k
    else pass fuel rest (k.emit [c])

/-- Passes through a format until the arguments are used up. -/
def passes (form : Chars) : Nat → Formatting → Formatting
  | 0, k => k
  | fuel + 1, k =>
    let after := pass (form.length + 1) form k
    if after.isOver || after.arguments.isEmpty || after.arguments.length == k.arguments.length then
      after
    else passes form fuel after

end Formatting

def format (isUtility : Bool) (form : Chars) (arguments : List Chars) : Formatting :=
  Formatting.passes form (arguments.length + 1) { isUtility, arguments }

end TargetQuery.Script
