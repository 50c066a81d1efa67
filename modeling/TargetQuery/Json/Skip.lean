import TargetQuery.Json.Text

/-!
# Skipped values

A value under a name that nobody asked for is skipped. It must be well-formed, but its strings need
not be UTF-8 nor its surrogates paired, its numbers may have any size and its nesting any depth. The
skipping is a machine that takes one byte at a time and keeps a stack of the open brackets.
-/

namespace TargetQuery.Json

/-- An open bracket. -/
inductive Frame where
  | list
  | object
deriving DecidableEq, Repr

/-- Where in a number the next byte stands. -/
inductive NumberState where
  | minus
  | zero
  | integer
  | point
  | fraction
  | exponent
  | exponentSign
  | exponentDigits
deriving DecidableEq, Repr

def NumberState.mayEnd : NumberState → Bool
  | .zero | .integer | .fraction | .exponentDigits => true
  | .minus | .point | .exponent | .exponentSign => false

/-- Where in a skipped value the next byte stands. -/
inductive SkipState where
  /-- A value must begin. -/
  | value
  /-- Inside `null`, `true` or `false`. -/
  | word (left : Bytes)
  | number (s : NumberState)
  | text (s : StringState)
  /-- A name must begin. -/
  | key
  | keyText (s : StringState)
  /-- Behind a name. -/
  | colon
  /-- Behind an opening bracket. -/
  | opened
  /-- Behind a value. -/
  | after
deriving DecidableEq, Repr

/-- What one byte does to the machine. -/
inductive SkipStep where
  /-- The byte is taken. -/
  | take (s : SkipState) (stack : List Frame)
  /-- The value ended before this byte. -/
  | stop
  | fail (f : Fault)
deriving DecidableEq, Repr

def skipValueStep (stack : List Frame) (b : UInt8) : SkipStep :=
  if isSpace b then .take .value stack
  else if b == letterN then .take (.word ull) stack
  else if b == letterT then .take (.word rue) stack
  else if b == letterF then .take (.word alse) stack
  else if b == Ascii.minus then .take (.number .minus) stack
  else if b == Ascii.zero then .take (.number .zero) stack
  else if Ascii.isDigit b then .take (.number .integer) stack
  else if b == Ascii.doubleQuote then .take (.text .plain) stack
  else if b == Ascii.openBracket then .take .opened (.list :: stack)
  else if b == Ascii.openBrace then .take .opened (.object :: stack)
  else .fail .valueExpected

/-- The first byte of a name. -/
def skipKeyStep (stack : List Frame) (b : UInt8) : SkipStep :=
  if isSpace b then .take .key stack
  else if b == Ascii.doubleQuote then .take (.keyText .plain) stack
  else .fail .keyNotString

def skipAfterStep (stack : List Frame) (b : UInt8) : SkipStep :=
  match stack with
  | [] => .stop
  | .list :: below =>
    if isSpace b then .take .after stack
    else if b == Ascii.comma then .take .value stack
    else if b == Ascii.closeBracket then .take .after below
    else .fail .listContinuation
  | .object :: below =>
    if isSpace b then .take .after stack
    else if b == Ascii.comma then .take .key stack
    else if b == Ascii.closeBrace then .take .after below
    else .fail .objectContinuation

/-- A byte of a number, or the first one behind it. -/
def skipNumberStep (s : NumberState) (stack : List Frame) (b : UInt8) : SkipStep :=
  let go (s : NumberState) : SkipStep := .take (.number s) stack
  let isExponent := b == letterE || b == capitalE
  match s with
  | .minus =>
    if b == Ascii.zero then go .zero
    else if Ascii.isDigit b then go .integer
    else .fail .badNumber
  | .zero =>
    if Ascii.isDigit b then .fail .badNumber
    else if b == Ascii.dot then go .point
    else if isExponent then go .exponent
    else skipAfterStep stack b
  | .integer =>
    if Ascii.isDigit b then go .integer
    else if b == Ascii.dot then go .point
    else if isExponent then go .exponent
    else skipAfterStep stack b
  | .point => if Ascii.isDigit b then go .fraction else .fail .badNumber
  | .fraction =>
    if Ascii.isDigit b then go .fraction
    else if isExponent then go .exponent
    else skipAfterStep stack b
  | .exponent =>
    if b == Ascii.plus || b == Ascii.minus then go .exponentSign
    else if Ascii.isDigit b then go .exponentDigits
    else .fail .badNumber
  | .exponentSign => if Ascii.isDigit b then go .exponentDigits else .fail .badNumber
  | .exponentDigits => if Ascii.isDigit b then go .exponentDigits else skipAfterStep stack b

def skipStep (s : SkipState) (stack : List Frame) (b : UInt8) : SkipStep :=
  match s with
  | .value => skipValueStep stack b
  | .word [] => skipAfterStep stack b
  | .word (expected :: left) =>
    if b == expected then .take (if left.isEmpty then .after else .word left) stack
    else .fail .wordExpected
  | .number s => skipNumberStep s stack b
  | .text s =>
    if s = .plain ∧ b = Ascii.doubleQuote then .take .after stack
    else match stringStep false s b with
      | .ok (_, s) => .take (.text s) stack
      | .error f => .fail f
  | .key => skipKeyStep stack b
  | .keyText s =>
    if s = .plain ∧ b = Ascii.doubleQuote then .take .colon stack
    else match stringStep false s b with
      | .ok (_, s) => .take (.keyText s) stack
      | .error f => .fail f
  | .colon =>
    if isSpace b then .take .colon stack
    else if b == Ascii.colon then .take .value stack
    else .fail .colonExpected
  | .opened =>
    if isSpace b then .take .opened stack
    else match stack with
      | .list :: below =>
        if b == Ascii.closeBracket then .take .after below else skipValueStep stack b
      | .object :: below =>
        if b == Ascii.closeBrace then .take .after below else skipKeyStep stack b
      | [] => .stop
  | .after => skipAfterStep stack b

/-- The fault of a text that ends inside a bracket. -/
def Frame.endFault : Frame → Fault
  | .list => .endInList
  | .object => .endInObject

/-- What the end of the text means: the end of the value, or a fault. -/
def skipEnd (s : SkipState) (stack : List Frame) : Option Fault :=
  let behind : Option Fault := stack.head?.map Frame.endFault
  match s with
  | .value | .word _ => some .endInValue
  | .number s => if s.mayEnd then behind else some .badNumber
  | .text _ | .keyText _ => some .endInString
  | .key | .colon => some .endInObject
  | .opened | .after => behind

/-- How far the text has been read when a byte shows a fault: up to a control character that stands
in a string, and else up to and with the byte. -/
def faultOffset (f : Fault) (n : Nat) : Nat :=
  match f with
  | .controlCharacter => n
  | _ => n + 1

/-- The cursor behind the value, from the given state on. -/
def skipFrom (n : Nat) : SkipState → List Frame → Bytes → Except Error Cursor
  | s, stack, [] =>
    match skipEnd s stack with
    | some f => .error ⟨.fault f, n⟩
    | none => .ok ⟨n, []⟩
  | s, stack, b :: rest =>
    match skipStep s stack b with
    | .stop => .ok ⟨n, b :: rest⟩
    | .fail f => .error ⟨.fault f, faultOffset f n⟩
    | .take s stack =>
      if s = .after ∧ stack = [] then .ok ⟨n + 1, rest⟩ else skipFrom (n + 1) s stack rest

def skipValue : Reader Unit := fun c =>
  (skipFrom c.offset .value [] c.rest).map fun c => ((), c)

end TargetQuery.Json
