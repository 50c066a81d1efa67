import TargetQuery.Machine.World

/-!
# The log

How notices appear on the error stream: a log line is its level, a space and its text. Characters
that would steer a terminal are shown in hexadecimal, so that a line stays what it says.
-/

namespace TargetQuery

def Level.label : Level → String
  | .debug => "DEBUG"
  | .info => " INFO"
  | .warning => " WARN"

namespace Log

/-- A byte in two lower-case hexadecimal digits. -/
def hexPair (n : Nat) : List Char :=
  let digits := Nat.toDigits 16 n
  List.replicate (2 - digits.length) '0' ++ digits

/-- Characters that steer a terminal and are ASCII. -/
def isSteering (c : Char) : Bool :=
  let n := c.toNat
  n == 0x07 || n == 0x08 || n == 0x0C || n == 0x1B || n == 0x7F

def escape (c : Char) : List Char :=
  let n := c.toNat
  if isSteering c then '\\' :: 'x' :: hexPair n
  else if 0x80 ≤ n && n ≤ 0x9F then
    ['\\', 'u', Char.ofNat 0x7B] ++ hexPair n ++ [Char.ofNat 0x7D]
  else [c]

def shown (text : String) : String := String.ofList (text.toList.flatMap escape)

/-- What a notice adds to the error stream. Details are left out unless they are wanted. -/
def render (verbose : Bool) : Notice → Bytes
  | .plain text => text
  | .log level text =>
    if level == .debug && !verbose then []
    else Utf8.encode (level.label ++ " " ++ shown text ++ "\n")

end Log

/-- What has been said on the error stream. -/
def World.errorStream (w : World) (verbose : Bool) : Bytes := w.notices.flatMap (Log.render verbose)

end TargetQuery
