import TargetQuery.Json.Number
import TargetQuery.Json.Text

/-!
# Values without parts

Readers for truth values, strings and null, and what they say when something else stands there. A
value of another kind is read as far as its wording needs: strings and numbers are taken, brackets
are not.
-/

namespace TargetQuery.Json

open Reader

/-- Stops because the next value is not what was expected. -/
def mistyped {α : Type} (expected : String) : Reader α := do
  match ← peek with
  | some b =>
    if b == letterN then
      skip; word ull; mismatch (.kind .null expected)
    else if b == letterT then
      skip; word rue; mismatch (.kind (.bool true) expected)
    else if b == letterF then
      skip; word alse; mismatch (.kind (.bool false) expected)
    else if b == Ascii.minus then
      skip
      let n ← numberToken false
      mismatch (.kind (.number n) expected)
    else if Ascii.isDigit b then
      let n ← numberToken true
      mismatch (.kind (.number n) expected)
    else if b == Ascii.doubleQuote then
      skip
      let s ← stringToken
      mismatch (.kind (.text s) expected)
    else if b == Ascii.openBracket then mismatch (.kind .list expected)
    else if b == Ascii.openBrace then mismatch (.kind .object expected)
    else failNext .valueExpected
  | none => failNext .valueExpected

def boolValue : Reader Bool := do
  match ← peekToken with
  | none => failNext .endInValue
  | some b =>
    if b == letterT then
      skip; word rue; pure true
    else if b == letterF then
      skip; word alse; pure false
    else mistyped "a boolean"

def textValue (expected : String) : Reader String := do
  match ← peekToken with
  | none => failNext .endInValue
  | some b =>
    if b == Ascii.doubleQuote then
      skip; stringToken
    else mistyped expected

def unitValue : Reader Unit := do
  match ← peekToken with
  | none => failNext .endInValue
  | some b =>
    if b == letterN then
      skip; word ull
    else mistyped "unit"

/-- Null, or a value. -/
def nullable {α : Type} (value : Reader α) : Reader (Option α) := do
  match ← peekToken with
  | some letterN => skip; word ull; pure none
  | _ => some <$> value

end TargetQuery.Json
