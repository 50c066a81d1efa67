import TargetQuery.Text.Bytes

/-!
# UTF-8

Characters to bytes and back. Reading is a machine that takes one byte at a time and never fails: it
cuts the text into characters and broken pieces, where a broken piece is the longest run of bytes
that could still have become a character. The strict reading admits no broken piece; the lossy one
shows each as U+FFFD.
-/

namespace TargetQuery.Utf8

def encodeChar (c : Char) : Bytes :=
  let n := c.toNat
  if n < 0x80 then [UInt8.ofNat n]
  else if n < 0x800 then [UInt8.ofNat (0xC0 + n / 0x40), UInt8.ofNat (0x80 + n % 0x40)]
  else if n < 0x10000 then
    [UInt8.ofNat (0xE0 + n / 0x1000), UInt8.ofNat (0x80 + n / 0x40 % 0x40),
      UInt8.ofNat (0x80 + n % 0x40)]
  else
    [UInt8.ofNat (0xF0 + n / 0x40000), UInt8.ofNat (0x80 + n / 0x1000 % 0x40),
      UInt8.ofNat (0x80 + n / 0x40 % 0x40), UInt8.ofNat (0x80 + n % 0x40)]

def encodeChars (s : List Char) : Bytes := s.flatMap encodeChar

def encode (s : String) : Bytes := encodeChars s.toList

/-- A stretch of bytes that is one character, or one that cannot be part of any. -/
inductive Piece where
  | char (c : Char)
  | broken
deriving DecidableEq, Repr

/-- What has been seen of a character that is not complete. -/
inductive Progress where
  /-- Between two characters. -/
  | fresh
  /-- Inside a character: the bits so far, how many bytes come after the next one, and the range in
  which the next one must lie. -/
  | within (bits after low high : Nat)
deriving DecidableEq, Repr

/-- The first byte of a character. -/
def start (n : Nat) : List Piece × Progress :=
  if n < 0x80 then ([.char (Char.ofNat n)], .fresh)
  else if n < 0xC2 then ([.broken], .fresh)
  else if n < 0xE0 then ([], .within (n - 0xC0) 0 0x80 0xBF)
  else if n == 0xE0 then ([], .within 0 1 0xA0 0xBF)
  else if n == 0xED then ([], .within 0xD 1 0x80 0x9F)
  else if n < 0xF0 then ([], .within (n - 0xE0) 1 0x80 0xBF)
  else if n == 0xF0 then ([], .within 0 2 0x90 0xBF)
  else if n < 0xF4 then ([], .within (n - 0xF0) 2 0x80 0xBF)
  else if n == 0xF4 then ([], .within 4 2 0x80 0x8F)
  else ([.broken], .fresh)

/-- One more byte. A byte that cannot continue the character begins a new one. -/
def step : Progress → Nat → List Piece × Progress
  | .fresh, n => start n
  | .within bits after low high, n =>
    if low ≤ n && n ≤ high then
      let bits := bits * 0x40 + (n - 0x80)
      match after with
      | 0 => ([.char (Char.ofNat bits)], .fresh)
      | k + 1 => ([], .within bits k 0x80 0xBF)
    else
      let (pieces, next) := start n
      (.broken :: pieces, next)

/-- The pieces of the text that follows what has been seen. -/
def piecesFrom : Progress → Bytes → List Piece
  | .fresh, [] => []
  | .within .., [] => [.broken]
  | p, b :: rest =>
    let (pieces, next) := step p b.toNat
    pieces ++ piecesFrom next rest

/-- The characters and broken pieces of a text. -/
def pieces (s : Bytes) : List Piece := piecesFrom .fresh s

def Piece.char? : Piece → Option Char
  | .char c => some c
  | .broken => none

def decode? (s : Bytes) : Option String := (pieces s).mapM Piece.char? |>.map String.ofList

/-- The text, with U+FFFD for each broken piece. -/
def lossy (s : Bytes) : String :=
  String.ofList ((pieces s).map fun p => p.char?.getD '\uFFFD')

/-- The number of bytes before the first broken piece. -/
def soundLength (s : Bytes) : Nat :=
  (encodeChars (((pieces s).takeWhile (·.char?.isSome)).filterMap Piece.char?)).length

/-- Whether all of the text is characters. -/
def isValid (s : Bytes) : Bool := (decode? s).isSome

end TargetQuery.Utf8
