import TargetQuery.Script.Utility.Basic

/-!
# Showing bytes

Programs that show what bytes a file holds, in numbers or in letters, and that tell where two files
differ.
-/

namespace TargetQuery.Script.Utility

/-! ### Numbers -/

inductive DumpKind where
  | named
  | char
  | signed
  | unsigned
  | octal
  | hex
deriving DecidableEq

/-- How the bytes of a line are written: so many of them make a value. -/
structure DumpForm where
  kind : DumpKind
  size : Nat := 1

/-- The digits of a number to a base, with zeros in front. -/
def digitsTo (base width n : Nat) : Chars :=
  let digits := Nat.toDigits base n
  List.replicate (width - digits.length) '0' ++ digits

/-- How many characters the values of a form take. -/
def DumpForm.width (f : DumpForm) : Nat :=
  match f.kind with
  | .named | .char => 3
  | .hex => 2 * f.size
  | .octal => (8 * f.size + 2) / 3
  | .unsigned => (toString (Nat.pow 256 f.size - 1)).length
  | .signed => (toString (Nat.pow 256 f.size / 2)).length + 1

def controlNames : List String :=
  ["nul", "soh", "stx", "etx", "eot", "enq", "ack", "bel", "bs", "ht", "nl", "vt", "ff", "cr", "so",
    "si", "dle", "dc1", "dc2", "dc3", "dc4", "nak", "syn", "etb", "can", "em", "sub", "esc", "fs",
    "gs", "rs", "us", "sp"]

def charShown (n : Nat) : Chars :=
  match n with
  | 0 => ['\\', '0']
  | 7 => ['\\', 'a']
  | 8 => ['\\', 'b']
  | 9 => ['\\', 't']
  | 10 => ['\\', 'n']
  | 11 => ['\\', 'v']
  | 12 => ['\\', 'f']
  | 13 => ['\\', 'r']
  | n => if 32 ≤ n && n ≤ 126 then [Char.ofNat n] else digitsTo 8 3 n

/-- A value as it is written. The first of its bytes counts least. -/
def DumpForm.shown (f : DumpForm) (bytes : Bytes) : Chars :=
  let n := bytes.foldr (fun b n => n * 256 + b.toNat) 0
  match f.kind with
  | .named =>
    let n := n % 128
    if n == 127 then "del".toList else ((controlNames[n]?).map String.toList).getD [Char.ofNat n]
  | .char => charShown n
  | .hex => digitsTo 16 (2 * f.size) n
  | .octal => digitsTo 8 f.width n
  | .unsigned => ofNat n
  | .signed =>
    let full := Nat.pow 256 f.size
    if n < full / 2 then ofNat n else '-' :: ofNat (full - n)

/-- One line of values; all forms take the same room for as many bytes. The fuel bounds how many
values there are. -/
def DumpForm.row (f : DumpForm) (spare total : Nat) : Nat → Nat → Bytes → Chars
  | 0, _, _ => []
  | _ + 1, _, [] => []
  | fuel + 1, i, bytes =>
    let next := spare * (total - i - 1) / total
    let here := spare * (total - i) / total - next
    let value := bytes.take f.size
    let whole := value ++ List.replicate (f.size - value.length) 0
    padded (f.width + 1 + here) (f.shown whole)
      ++ f.row spare total fuel (i + 1) (bytes.drop f.size)

/-- The forms that letters ask for. The fuel bounds their number. -/
def dumpForms? : Nat → Chars → Option (List DumpForm)
  | 0, _ => none
  | _ + 1, [] => some []
  | fuel + 1, c :: rest =>
    let digits := rest.takeWhile Char.isDigit
    let sized (kind : DumpKind) : Option (List DumpForm) := do
      let (size, rest) ← match digits, rest with
        | [], 'C' :: rest => some (1, rest)
        | [], 'S' :: rest => some (2, rest)
        | [], 'I' :: rest => some (4, rest)
        | [], 'L' :: rest => some (8, rest)
        | [], rest => some (4, rest)
        | digits, rest => some (ofDigits 10 digits, rest.drop digits.length)
      if [1, 2, 4, 8].contains size then some ({ kind, size } :: (← dumpForms? fuel rest))
      else none
    match c with
    | 'a' => return { kind := .named } :: (← dumpForms? fuel rest)
    | 'c' => return { kind := .char } :: (← dumpForms? fuel rest)
    | 'd' => sized .signed
    | 'o' => sized .octal
    | 'u' => sized .unsigned
    | 'x' => sized .hex
    | _ => none

def addressShown (kind : Char) (n : Nat) : Chars :=
  match kind with
  | 'd' => digitsTo 10 7 n
  | 'x' => digitsTo 16 6 n
  | 'n' => []
  | _ => digitsTo 8 7 n

/-- The lines of a dump. A line like the one in front of it is left out, for which there is a star.
The fuel bounds the number of lines. -/
def dumpLines (forms : List DumpForm) (kind : Char) (width : Nat) (all : Bool) :
    Nat → Nat → Option Bytes → Bool → Bytes → List Chars
  | 0, _, _, _, _ => []
  | _ + 1, position, _, _, [] => if kind == 'n' then [] else [addressShown kind position]
  | fuel + 1, position, last?, starred, bytes =>
    let here := bytes.take width
    let next := dumpLines forms kind width all fuel (position + here.length) (some here)
    let rest := bytes.drop width
    if !all && last? == some here && !(rest.isEmpty && here.length < width) then
      if starred then next true rest else ['*'] :: next true rest
    else
      let own (f : DumpForm) : Nat := (f.width + 1) * (width / f.size)
      let room := (forms.map own).foldl max 0
      let rows := forms.mapIdx fun i f =>
        let front := addressShown kind position
        (if i == 0 then front else List.replicate front.length ' ')
          ++ f.row (room - own f) (width / f.size) (here.length + 1) 0 here
      rows ++ next false rest

def od (zero : Chars) (arguments : List Chars) : Task Nat :=
  withOptions "abcdosxv" "AtNjw" zero arguments fun o => do
    let letter (c : Char) : List DumpForm :=
      match c with
      | 'a' => [{ kind := .named }]
      | 'b' => [{ kind := .octal }]
      | 'c' => [{ kind := .char }]
      | 'd' => [{ kind := .unsigned, size := 2 }]
      | 'o' => [{ kind := .octal, size := 2 }]
      | 's' => [{ kind := .signed, size := 2 }]
      | 'x' => [{ kind := .hex, size := 2 }]
      | _ => []
    let named := (o.values.filter (·.1 == 't')).map (·.2)
    match named.find? fun a => (dumpForms? (a.length + 1) a).isNone with
    | some wrong =>
      complainAs zero ("invalid type string ".toList ++ quoted wrong)
      pure 1
    | none =>
      let forms := named.flatMap (fun a => (dumpForms? (a.length + 1) a).getD [])
        ++ o.letters.flatMap letter
      let forms := if forms.isEmpty then [{ kind := .octal, size := 2 }] else forms
      let (content, status) ← gather zero o.operands
      let number (c : Char) : Option Nat := (o.value? c).bind natural?
      let start := (number 'j').getD 0
      let content := content.drop start
      let content := ((number 'N').map content.take).getD content
      let kind := ((o.value? 'A').bind (·.head?)).getD 'o'
      let width := max 1 ((number 'w').getD 16)
      if status == 0 || !content.isEmpty then
        printLines (dumpLines forms kind width (o.has 'v') (content.length + 2) start none false
          content)
      pure status

/-! ### Letters -/

def sixBitLetters : Chars :=
  "ABCDEFGHIJKLMNOPQRSTUVWXYZabcdefghijklmnopqrstuvwxyz0123456789+/".toList

/-- Four letters for three bytes. The fuel bounds their number. -/
def inLetters : Nat → Bytes → Chars
  | 0, _ => []
  | _ + 1, [] => []
  | fuel + 1, bytes =>
    let three := bytes.take 3
    let whole : Bytes := three ++ List.replicate (3 - three.length) 0
    let n := whole.foldl (fun n b => n * 256 + b.toNat) 0
    let letter (i : Nat) : Char := (sixBitLetters[n / Nat.pow 64 (3 - i) % 64]?).getD '='
    let letters := (List.range 4).map fun i => if i ≤ three.length then letter i else '='
    letters ++ inLetters fuel (bytes.drop 3)

/-- The bytes that letters stand for, if they do. The fuel bounds their number. -/
def fromLetters? : Nat → Chars → Option Bytes
  | 0, _ => none
  | _ + 1, [] => some []
  | fuel + 1, s => do
    let four := s.take 4
    let count := (four.takeWhile (· != '=')).length
    if four.length < 4 || count < 2 || (four.drop count).any (· != '=') then none
    else
      let values ← (four.take count).mapM fun c => sixBitLetters.idxOf? c
      let n := (values ++ List.replicate (4 - count) 0).foldl (fun n v => n * 64 + v) 0
      let bytes : Bytes := [n / 65536, n / 256 % 256, n % 256].map UInt8.ofNat
      let more ← fromLetters? fuel (s.drop 4)
      some (bytes.take (count - 1) ++ more)

/-- A text in lines of a length. The fuel bounds their number. -/
def wrapped (width : Nat) : Nat → Chars → Chars
  | 0, s => s
  | fuel + 1, s =>
    if s.isEmpty then []
    else if width == 0 then s
    else s.take width ++ '\n' :: wrapped width fuel (s.drop width)

/-- Shows bytes by letters, or the bytes for which letters stand. -/
def base64 (zero : Chars) (arguments : List Chars) : Task Nat :=
  withOptions "di" "w" zero arguments fun o => do
    let (content, status) ← gather zero o.operands
    if o.has 'd' then
      let letters := (ofBytes content).filter (· != '\n')
      match fromLetters? (letters.length + 1) letters with
      | some bytes =>
        let _ ← put 1 bytes
        pure status
      | none =>
        complainAs zero "invalid input".toList
        pure 1
    else
      let width := ((o.value? 'w').bind natural?).getD 76
      print (wrapped width (2 * content.length + 1) (inLetters (content.length + 1) content))
      pure status

/-! ### Differences -/

/-- Tells where two files differ first. -/
def cmp (zero : Chars) (arguments : List Chars) : Task Nat :=
  withOptions "bls" "in" zero arguments (fun o => do
    match o.operands with
    | [] =>
      complainAs zero ("missing operand after ".toList ++ quoted zero)
      complainAs zero ("Try ".toList ++ quoted (zero ++ " --help".toList)
        ++ " for more information.".toList)
      pure 2
    | a :: rest =>
      let b := rest.headD ['-']
      match ← contentOf a, ← contentOf b with
      | .error failure, _ =>
        if !o.has 's' then complainAs zero (a ++ ": ".toList ++ reason failure)
        pure 2
      | _, .error failure =>
        if !o.has 's' then complainAs zero (b ++ ": ".toList ++ reason failure)
        pure 2
      | .ok x, .ok y =>
        let same := ((x.zip y).takeWhile fun p => p.1 == p.2).length
        let line := (x.take same).count Ascii.newline + 1
        let shorter := if x.length < y.length then a else b
        let isEnd := same == min x.length y.length
        if x == y then pure 0
        else
          if o.has 's' then pure ()
          else if isEnd && same == 0 then
            complainAs zero ("EOF on ".toList ++ shorter ++ " which is empty".toList)
          else if isEnd then
            let line := if (x.take same).getLast? == some Ascii.newline then ofNat (line - 1)
              else "in ".toList ++ ofNat line
            complainAs zero ("EOF on ".toList ++ shorter ++ " after byte ".toList ++ ofNat same
              ++ (if line.head? == some 'i' then ", in line ".toList ++ line.drop 3
                else ", line ".toList ++ line))
          else
            printLines [a ++ ' ' :: b ++ " differ: char ".toList ++ ofNat (same + 1)
              ++ ", line ".toList ++ ofNat line]
          pure 1) 2

end TargetQuery.Script.Utility
