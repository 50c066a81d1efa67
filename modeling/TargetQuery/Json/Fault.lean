import TargetQuery.Text.Bytes
import TargetQuery.Text.Decimal
import TargetQuery.Text.Quoted

/-!
# What can be wrong with a JSON text

A reader stops at the first problem. Either the text is not JSON (`Fault`), or it is JSON of another
shape than was asked for (`Mismatch`). An error also says how many bytes had been looked at, from
which the line and the column follow.
-/

namespace TargetQuery.Json

/-- The text is not well-formed, or it ends too early. -/
inductive Fault where
  | endInList
  | endInObject
  | endInString
  | endInValue
  | colonExpected
  | listContinuation
  | objectContinuation
  | wordExpected
  | valueExpected
  | badEscape
  | badNumber
  | numberRange
  | badUnicode
  | controlCharacter
  | keyNotString
  | loneSurrogate
  | halfPair
  | trailingComma
  | trailingText
  | tooDeep
deriving DecidableEq, Repr

/-- Whether the fault is that the text ends. -/
def Fault.isEnd : Fault → Bool
  | .endInList | .endInObject | .endInString | .endInValue => true
  | _ => false

def Fault.message : Fault → String
  | .endInList => "EOF while parsing a list"
  | .endInObject => "EOF while parsing an object"
  | .endInString => "EOF while parsing a string"
  | .endInValue => "EOF while parsing a value"
  | .colonExpected => "expected `:`"
  | .listContinuation => "expected `,` or `]`"
  | .objectContinuation => "expected `,` or `\x7d`"
  | .wordExpected => "expected ident"
  | .valueExpected => "expected value"
  | .badEscape => "invalid escape"
  | .badNumber => "invalid number"
  | .numberRange => "number out of range"
  | .badUnicode => "invalid unicode code point"
  | .controlCharacter => "control character (\\u0000-\\u001F) found while parsing a string"
  | .keyNotString => "key must be a string"
  | .loneSurrogate => "lone leading surrogate in hex escape"
  | .halfPair => "unexpected end of hex escape"
  | .trailingComma => "trailing comma"
  | .trailingText => "trailing characters"
  | .tooDeep => "recursion limit exceeded"

/-- A number as it was read: exact when it fits 64 bits, otherwise a binary64 value. -/
inductive Number where
  | natural (n : Nat)
  /-- The number `-n`, with `n` positive. -/
  | negative (n : Nat)
  | float (x : Float)

/-- A value of the wrong kind. -/
inductive Found where
  | null
  | bool (b : Bool)
  | number (n : Number)
  | text (s : String)
  | list
  | object

/-- The text is JSON, but not of the shape that was asked for. -/
inductive Mismatch where
  /-- A value of another kind stands where `expected` should. -/
  | kind (found : Found) (expected : String)
  /-- An object stands where one with exactly one member should. -/
  | notSingleton
  /-- A number that counts none of so many choices. -/
  | noChoice (n count : Nat)
  /-- A list of this length stands where `expected` should. -/
  | length (n : Nat) (expected : String)
  /-- A name that is none of the expected ones. -/
  | unknownName (name : String) (expected : List String)
  /-- A member that must be there is not. -/
  | missing (name : String)
  /-- A member that may be there once is there twice. -/
  | duplicate (name : String)

/-- The wording of a number: exact ones as integers, others with the fewest digits that identify
them. -/
def Number.describe : Number → String
  | .natural n => "integer `" ++ toString n ++ "`"
  | .negative n => "integer `-" ++ toString n ++ "`"
  | .float x => "floating point `" ++ Decimal.compact.render x ++ "`"

/-- The wording of a kind of value. -/
def Found.describe : Found → String
  | .null => "null"
  | .bool b => "boolean `" ++ (if b then "true" else "false") ++ "`"
  | .number n => n.describe
  | .text s => "string " ++ Quoted.render s
  | .list => "sequence"
  | .object => "map"

/-- A choice among names. -/
def oneOf : List String → String
  | [] => "there are no variants"
  | [a] => "expected `" ++ a ++ "`"
  | [a, b] => "expected `" ++ a ++ "` or `" ++ b ++ "`"
  | names => "expected one of " ++ ", ".intercalate (names.map fun n => "`" ++ n ++ "`")

def Mismatch.message : Mismatch → String
  | .kind found expected => "invalid type: " ++ found.describe ++ ", expected " ++ expected
  | .notSingleton => "invalid value: map, expected map with a single key"
  | .noChoice n count =>
    "invalid value: integer `" ++ toString n ++ "`, expected variant index 0 <= i < "
      ++ toString count
  | .length n expected => "invalid length " ++ toString n ++ ", expected " ++ expected
  | .unknownName name expected => "unknown variant `" ++ name ++ "`, " ++ oneOf expected
  | .missing name => "missing field `" ++ name ++ "`"
  | .duplicate name => "duplicate field `" ++ name ++ "`"

/-- Why reading stopped. -/
inductive Cause where
  | fault (f : Fault)
  | mismatch (m : Mismatch)

/-- The coarse class of a problem. -/
inductive Category where
  | grammar
  | ending
  | shape
deriving DecidableEq, Repr

namespace Cause

/-- A mismatch is about the shape; a fault is about the grammar or about the end of the text. -/
def category : Cause → Category
  | .mismatch _ => .shape
  | .fault f => if f.isEnd then .ending else .grammar

def message : Cause → String
  | .fault f => f.message
  | .mismatch m => m.message

end Cause

/-- A problem, and how many bytes had been looked at when it was noticed. -/
structure Error where
  cause : Cause
  offset : Nat

/-- A place in a text: lines count from one, columns are bytes within the line. -/
structure Position where
  line : Nat
  column : Nat
deriving DecidableEq, Repr

def Position.after (s : List UInt8) : Position where
  line := s.count Ascii.newline + 1
  column := (s.reverse.takeWhile (· != Ascii.newline)).length

/-- A problem with its place. -/
structure LocatedError where
  cause : Cause
  position : Position

/-- The place of an error in the text that was read. -/
def Error.locate (e : Error) (text : Bytes) : LocatedError :=
  ⟨e.cause, Position.after (text.take e.offset)⟩

/-- The wording of a problem, ending in its place. -/
def LocatedError.message (e : LocatedError) : String :=
  e.cause.message ++ " at line " ++ toString e.position.line ++ " column "
    ++ toString e.position.column

end TargetQuery.Json
