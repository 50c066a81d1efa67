import TargetQuery.Json.Buffered
import TargetQuery.Json.Skip

/-!
# Names and tagged values

A choice among names is written as the name, or as an object whose only member has the name and the
value null. A tagged value is an object with a tag, which is such a choice, and a content, whose
kind the tag decides; or a list of the two. The members come in either order: a content that comes
first is buffered.
-/

namespace TargetQuery.Json

open Reader

def choose {α : Type} (table : List (String × α)) (name : String) : Except Mismatch α :=
  match table.lookup name with
  | some a => .ok a
  | none => .error (.unknownName name (table.map (·.1)))

def nameValue {α : Type} (table : List (String × α)) (room : Nat) : Reader α := do
  match ← peekToken with
  | none => failNext .endInValue
  | some b =>
    if b == Ascii.openBrace then
      let _ ← openBracket room
      let name ← textValue "variant identifier"
      let a ← demand (choose table name)
      colonToken
      unitValue
      match ← peekToken with
      | none => failHere .endInObject
      | some b => if b == Ascii.closeBrace then do skip; pure a else failHere .valueExpected
    else if b == Ascii.doubleQuote then
      let name ← textValue "variant identifier"
      demand (choose table name)
    else failNext .valueExpected

/-- A choice among names that was buffered. -/
def Buffered.name {α : Type} (table : List (String × α)) : Buffered → Except Mismatch α
  | .text s => choose table s
  | .object [(name, value)] => do
    let a ← choose table name
    match value with
    | .null | .object [] => .ok a
    | other => .error (.kind other.found "unit")
  | .object _ => .error .notSingleton
  | other => .error (.kind other.found "string or map")

/-- A choice written as a bare name, as it is in a list. -/
def bareName {α : Type} (table : List (String × α)) : Reader α := do
  let name ← textValue "variant identifier"
  demand (choose table name)

/-- A choice that was buffered as a bare name, or as its place among the choices. -/
def Buffered.bareName {α : Type} (table : List (String × α)) : Buffered → Except Mismatch α
  | .text s => choose table s
  | .number (.natural n) =>
    match table[n]? with
    | some (_, a) => .ok a
    | none => .error (.noChoice n table.length)
  | other => .error (.kind other.found "variant identifier")

def Buffered.textOf (expected : String) : Buffered → Except Mismatch String
  | .text s => .ok s
  | other => .error (.kind other.found expected)

/-- What belongs to a tag. -/
inductive Content (α : Type) where
  /-- Nothing, or null; the title is for messages. -/
  | nothing (title : String) (a : α)
  /-- A value, read directly or taken from the buffer. -/
  | value (read : Nat → Reader α) (ofBuffered : Buffered → Except Mismatch α)

structure Tagged (α : Type) where
  name : String
  tagName : String
  contentName : String
  cases : List (String × Content α)

/-- What has been seen of a tagged value in its object form. -/
inductive TaggedDraft (α : Type) where
  | nothing
  | tag (content : Content α)
  | content (b : Buffered)
  | both (a : α)

/-- Null where a tag has no content; anything else is read as far as its wording needs. -/
def nothingValue (title : String) (room : Nat) : Reader Unit := do
  let complain (found : Found) : Reader Unit := mismatch (.kind found title)
  match ← peekToken with
  | none => failNext .endInValue
  | some b =>
    if b == letterN then
      skip; word ull
    else if b == Ascii.openBracket then
      let _ ← openBracket room
      enclosed closeList (pure (.error (.kind .list title)))
    else if b == Ascii.openBrace then
      let _ ← openBracket room
      enclosed closeObject (pure (.error (.kind .object title)))
    else
      match ← anyValue none with
      | .null => pure ()
      | other => complain other.found

namespace Content

variable {α : Type}

def read (room : Nat) : Content α → Reader α
  | .nothing title a => do
    nothingValue title room
    pure a
  | .value read _ => read room

def ofBuffered (b : Buffered) : Content α → Except Mismatch α
  | .nothing title a =>
    match b with
    | .null => .ok a
    | other => .error (.kind other.found title)
  | .value _ take => take b

end Content

namespace Tagged

variable {α : Type}

/-- How messages call the value. -/
def title (t : Tagged α) : String := "adjacently tagged enum " ++ t.name

/-- One member of the object form, from behind its name on. -/
def memberStep (t : Tagged α) (room : Nat) (draft : TaggedDraft α) (name : String) :
    Reader (Except Mismatch (TaggedDraft α)) :=
  if name == t.tagName then
    match draft with
    | .nothing => do
      colonToken
      let content ← nameValue t.cases room
      pure (.ok (.tag content))
    | .content b => do
      colonToken
      let content ← nameValue t.cases room
      pure ((content.ofBuffered b).map .both)
    | .tag _ | .both _ => pure (.error (.duplicate t.tagName))
  else if name == t.contentName then
    match draft with
    | .nothing => do
      colonToken
      let b ← buffered room
      pure (.ok (.content b))
    | .tag content => do
      colonToken
      let a ← content.read room
      pure (.ok (.both a))
    | .content _ | .both _ => pure (.error (.duplicate t.contentName))
  else do
    colonToken
    skipValue
    pure (.ok draft)

/-- The value of a draft at the end of the object. -/
def finish (t : Tagged α) : TaggedDraft α → Except Mismatch α
  | .nothing | .content _ => .error (.missing t.tagName)
  | .tag (.nothing _ a) => .ok a
  | .tag (.value ..) => .error (.missing t.contentName)
  | .both a => .ok a

def listForm (t : Tagged α) (room : Nat) : Reader (Except Mismatch α) := do
  if ← elementFollows true then
    let content ← bareName t.cases
    if ← elementFollows false then .ok <$> content.read room
    else pure (.error (.length 1 t.title))
  else pure (.error (.length 0 t.title))

/-- Reads a tagged value, with room for so many brackets. -/
def read (t : Tagged α) (room : Nat) : Reader α := do
  match ← peekToken with
  | none => failNext .endInValue
  | some b =>
    if b == Ascii.openBracket then
      let room ← openBracket room
      enclosed closeList (t.listForm room)
    else if b == Ascii.openBrace then
      let room ← openBracket room
      enclosed closeObject do
        let draft ← withFuel fun fuel => foldMembers (t.memberStep room) fuel true .nothing
        pure (draft.bind t.finish)
    else mistyped t.title

def bufferedStep (t : Tagged α) (draft : TaggedDraft α) (member : String × Buffered) :
    Except Mismatch (TaggedDraft α) :=
  if member.1 == t.tagName then
    match draft with
    | .nothing => (member.2.name t.cases).map .tag
    | .content b => do
      let content ← member.2.name t.cases
      (content.ofBuffered b).map .both
    | .tag _ | .both _ => .error (.duplicate t.tagName)
  else if member.1 == t.contentName then
    match draft with
    | .nothing => .ok (.content member.2)
    | .tag content => (content.ofBuffered member.2).map .both
    | .content _ | .both _ => .error (.duplicate t.contentName)
  else .ok draft

def ofBuffered (t : Tagged α) : Buffered → Except Mismatch α
  | .object members => do
    let draft ← members.foldlM t.bufferedStep .nothing
    t.finish draft
  | .list [] => .error (.length 0 t.title)
  | .list (tag :: more) => do
    let content ← tag.bareName t.cases
    match more with
    | [] => .error (.length 1 t.title)
    | value :: extra =>
      let a ← content.ofBuffered value
      if extra.isEmpty then .ok a
      else .error (.length (2 + extra.length) "2 elements in sequence")
  | other => .error (.kind other.found t.title)

end Tagged

end TargetQuery.Json
