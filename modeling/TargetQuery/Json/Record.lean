import TargetQuery.Json.Container
import TargetQuery.Json.Skip

/-!
# Records

A record is written as an object, whose members come in any order and may be mixed with unknown
ones, or as a list of its fields in their declared order. A field that is read fills its place in a
draft; at the end the draft must be complete. Optional fields may be left out of an object, and off
the end of a list.
-/

namespace TargetQuery.Json

open Reader

structure RecordField (σ : Type) where
  name : String
  optional : Bool
  /-- Whether the draft has this field already. -/
  filled : σ → Bool
  /-- Reads a value into the draft, with room for so many brackets. -/
  read : Nat → σ → Reader σ

/-- A record of type `α`, drafted in `σ`. -/
structure Record (σ α : Type) where
  name : String
  fields : List (RecordField σ)
  empty : σ
  /-- The record of a complete draft, or the first field that it lacks. -/
  complete : σ → Except String α

namespace Record

variable {σ α : Type}

def title (r : Record σ α) : String := "struct " ++ r.name

/-- How messages call the record written as a list. -/
def listTitle (r : Record σ α) : String :=
  r.title ++ " with " ++ toString r.fields.length ++ " elements"

/-- One member of the object form, from behind its name on. -/
def memberStep (r : Record σ α) (room : Nat) (draft : σ) (name : String) :
    Reader (Except Mismatch σ) :=
  match r.fields.find? (·.name == name) with
  | none => do
    colonToken
    skipValue
    pure (.ok draft)
  | some field =>
    if field.filled draft then pure (.error (.duplicate field.name))
    else do
      colonToken
      .ok <$> field.read room draft

/-- The fields of the list form, from the one with index `i` on. -/
def listFields (r : Record σ α) (room : Nat) :
    List (RecordField σ) → Nat → σ → Reader (Except Mismatch σ)
  | [], _, draft => pure (.ok draft)
  | field :: fields, i, draft => do
    if ← elementFollows (i == 0) then
      let draft ← field.read room draft
      r.listFields room fields (i + 1) draft
    else if field.optional then r.listFields room fields i draft
    else pure (.error (.length i r.listTitle))

/-- The record of a draft, unless the draft is already known to be wrong. -/
def finish (r : Record σ α) (draft : Except Mismatch σ) : Except Mismatch α := do
  (r.complete (← draft)).mapError .missing

/-- Reads a record, with room for so many brackets. -/
def read (r : Record σ α) (room : Nat) : Reader α := do
  match ← peekToken with
  | none => failNext .endInValue
  | some b =>
    if b == Ascii.openBracket then
      let room ← openBracket room
      enclosed closeList (r.finish <$> r.listFields room r.fields 0 r.empty)
    else if b == Ascii.openBrace then
      let room ← openBracket room
      enclosed closeObject
        (r.finish <$> withFuel fun fuel => foldMembers (r.memberStep room) fuel true r.empty)
    else mistyped r.title

end Record

end TargetQuery.Json
