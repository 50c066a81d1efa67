import TargetQuery.Json.Scalar

/-!
# Lists and objects

The frame of a list or an object: what may stand between the brackets, and how they close. Where the
content turns out to be of the wrong shape, the closing bracket is still looked for, and the
mismatch is placed behind whatever was passed on the way.
-/

namespace TargetQuery.Json

open Reader

/-- How many brackets may be open at once around values that are kept. -/
def maxDepth : Nat := 128

def openBracket (room : Nat) : Reader Nat :=
  if room ≤ 1 then failNext .tooDeep
  else do
    skip
    pure (room - 1)

/-- Whether another element follows in a list. -/
def elementFollows (first : Bool) : Reader Bool := do
  match ← peekToken with
  | none => failNext .endInList
  | some b =>
    if b == Ascii.closeBracket then pure false
    else if first then pure true
    else if b == Ascii.comma then
      skip
      match ← peekToken with
      | none => failNext .endInValue
      | some b => if b == Ascii.closeBracket then failNext .trailingComma else pure true
    else failNext .listContinuation

/-- The name of the next member of an object, if another one follows. -/
def nameFollows (first : Bool) : Reader (Option String) := do
  match ← peekToken with
  | none => failNext .endInObject
  | some b =>
    if b == Ascii.closeBrace then pure none
    else if first then
      if b == Ascii.doubleQuote then
        skip
        some <$> stringToken
      else failNext .keyNotString
    else if b == Ascii.comma then
      skip
      match ← peekToken with
      | none => failNext .endInValue
      | some b =>
        if b == Ascii.doubleQuote then
          skip
          some <$> stringToken
        else if b == Ascii.closeBrace then failNext .trailingComma
        else failNext .keyNotString
    else failNext .objectContinuation

def colonToken : Reader Unit := do
  match ← peekToken with
  | none => failNext .endInObject
  | some b => if b == Ascii.colon then skip else failNext .colonExpected

/-- The attempt to close a bracket: whether it closes, and where the attempt ends either way. -/
abbrev Closing := Cursor → Except Error Unit × Cursor

def Cursor.advance : Cursor → Cursor
  | ⟨n, []⟩ => ⟨n, []⟩
  | ⟨n, _ :: rest⟩ => ⟨n + 1, rest⟩

/-- Closes a list. -/
def closeList : Closing := fun c =>
  let c := c.skipSpace
  match c.rest with
  | [] => (.error ⟨.fault .endInList, c.offset⟩, c)
  | b :: _ =>
    if b == Ascii.closeBracket then (.ok (), c.advance)
    else if b == Ascii.comma then
      let c := c.advance.skipSpace
      let f := if c.rest.head? == some Ascii.closeBracket then .trailingComma else .trailingText
      (.error ⟨.fault f, c.sight⟩, c)
    else (.error ⟨.fault .trailingText, c.sight⟩, c)

def closeObject : Closing := fun c =>
  let c := c.skipSpace
  match c.rest with
  | [] => (.error ⟨.fault .endInObject, c.offset⟩, c)
  | b :: _ =>
    if b == Ascii.closeBrace then (.ok (), c.advance)
    else if b == Ascii.comma then (.error ⟨.fault .trailingComma, c.sight⟩, c)
    else (.error ⟨.fault .trailingText, c.sight⟩, c)

/-- The content of a bracket and its end. A mismatch in the content wins over a bracket that does
not close, and is placed where the attempt to close it ends. -/
def enclosed {α : Type} (close : Closing) (content : Reader (Except Mismatch α)) : Reader α :=
    fun c => do
  let (verdict, c) ← content c
  let (closed, c) := close c
  match verdict with
  | .error m => .error ⟨.mismatch m, c.offset⟩
  | .ok a => closed.map fun _ => (a, c)

/-- The elements up to the end of a list. The fuel counts elements. -/
def elements {α : Type} (item : Reader α) : Nat → Bool → Reader (List α)
  | 0, _ => failNext .endInList
  | fuel + 1, first => do
    if ← elementFollows first then
      let a ← item
      let more ← elements item fuel false
      pure (a :: more)
    else pure []

/-- The members up to the end of an object. The fuel counts members. -/
def members {α : Type} (value : Reader α) : Nat → Bool → Reader (List (String × α))
  | 0, _ => failNext .endInObject
  | fuel + 1, first => do
    match ← nameFollows first with
    | none => pure []
    | some name =>
      colonToken
      let a ← value
      let more ← members value fuel false
      pure ((name, a) :: more)

/-- Folds over the members up to the end of an object, or up to a mismatch. The step starts behind
the name. The fuel counts members. -/
def foldMembers {σ : Type} (step : σ → String → Reader (Except Mismatch σ)) :
    Nat → Bool → σ → Reader (Except Mismatch σ)
  | 0, _, _ => failNext .endInObject
  | fuel + 1, first, s => do
    match ← nameFollows first with
    | none => pure (.ok s)
    | some name =>
      match ← step s name with
      | .error m => pure (.error m)
      | .ok s => foldMembers step fuel false s

/-- Fuel for every element or member that the rest of the text can hold. -/
def withFuel {α : Type} (r : Nat → Reader α) : Reader α := fun c => r (c.rest.length + 1) c

def listValue {α : Type} (item : Nat → Reader α) (room : Nat) : Reader (List α) := do
  match ← peekToken with
  | none => failNext .endInValue
  | some b =>
    if b == Ascii.openBracket then
      let room ← openBracket room
      enclosed closeList (.ok <$> withFuel fun fuel => elements (item room) fuel true)
    else mistyped "a sequence"

end TargetQuery.Json
