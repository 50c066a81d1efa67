import TargetQuery.Json.Container

/-!
# Buffered values

A value whose meaning depends on a tag that comes later is kept as a tree until the tag is known.
-/

namespace TargetQuery.Json

open Reader

/-- A value that was read before it was known what it should be. -/
inductive Buffered where
  | null
  | bool (b : Bool)
  | number (n : Number)
  | text (s : String)
  | list (items : List Buffered)
  | object (members : List (String × Buffered))

/-- How messages call the value. -/
def Buffered.found : Buffered → Found
  | .null => .null
  | .bool b => .bool b
  | .number n => .number n
  | .text s => .text s
  | .list _ => .list
  | .object _ => .object

/-- A value of any kind. The argument reads the values within brackets, if there is room for any. -/
def anyValue (nested : Option (Reader Buffered)) : Reader Buffered := do
  match ← peekToken with
  | none => failNext .endInValue
  | some b =>
    if b == letterN then
      skip; word ull; pure .null
    else if b == letterT then
      skip; word rue; pure (.bool true)
    else if b == letterF then
      skip; word alse; pure (.bool false)
    else if b == Ascii.minus then
      skip
      .number <$> numberToken false
    else if Ascii.isDigit b then .number <$> numberToken true
    else if b == Ascii.doubleQuote then
      skip
      .text <$> stringToken
    else if b == Ascii.openBracket then
      match nested with
      | none => failNext .tooDeep
      | some item =>
        skip
        .list <$> enclosed closeList (.ok <$> withFuel fun fuel => elements item fuel true)
    else if b == Ascii.openBrace then
      match nested with
      | none => failNext .tooDeep
      | some item =>
        skip
        .object <$> enclosed closeObject (.ok <$> withFuel fun fuel => members item fuel true)
    else failNext .valueExpected

/-- Reads a value of any kind, with room for so many brackets. -/
def buffered : Nat → Reader Buffered
  | 0 => anyValue none
  | 1 => anyValue none
  | room + 1 => anyValue (some (buffered room))

end TargetQuery.Json
