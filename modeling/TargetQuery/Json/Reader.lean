import TargetQuery.Json.Fault

/-!
# Reading from the front

A reader takes a cursor, which is the unread part of a text with the number of bytes before it, and
returns a value with the cursor behind it, or stops at an error. Nothing is read twice, and no
reader looks more than one byte past what it takes, so an error is about the bytes up to its offset
only.
-/

namespace TargetQuery.Json

/-- The unread part of a text, and how many bytes come before it. -/
structure Cursor where
  offset : Nat
  rest : Bytes
deriving DecidableEq, Repr

/-- A step that takes bytes from the front of a text. -/
abbrev Reader := StateT Cursor (Except Error)

def Cursor.ofBytes (s : Bytes) : Cursor := ⟨0, s⟩

/-- How far one has looked after looking at the next byte. -/
def Cursor.sight (c : Cursor) : Nat :=
  match c.rest with
  | [] => c.offset
  | _ :: _ => c.offset + 1

/-- White space of JSON: space, newline, tab and carriage return. -/
def isSpace (b : UInt8) : Bool :=
  b == Ascii.space || b == Ascii.newline || b == Ascii.tab || b == Ascii.carriageReturn

def Cursor.skipSpace : Cursor → Cursor
  | ⟨n, rest⟩ => go n rest
where
  go (n : Nat) : Bytes → Cursor
    | [] => ⟨n, []⟩
    | b :: rest => if isSpace b then go (n + 1) rest else ⟨n, b :: rest⟩

namespace Reader

/-- Stops at a fault noticed in what was taken. -/
def failHere {α : Type} (f : Fault) : Reader α := fun c => .error ⟨.fault f, c.offset⟩

/-- Stops at a fault noticed in the byte that comes next. -/
def failNext {α : Type} (f : Fault) : Reader α := fun c => .error ⟨.fault f, c.sight⟩

def mismatch {α : Type} (m : Mismatch) : Reader α := fun c => .error ⟨.mismatch m, c.offset⟩

/-- The next byte, which stays unread. -/
def peek : Reader (Option UInt8) := fun c => .ok (c.rest.head?, c)

def next? : Reader (Option UInt8) := fun
  | ⟨n, []⟩ => .ok (none, ⟨n, []⟩)
  | ⟨n, b :: rest⟩ => .ok (some b, ⟨n + 1, rest⟩)

/-- Takes the next byte, if there is one. -/
def skip : Reader Unit := fun
  | ⟨n, []⟩ => .ok ((), ⟨n, []⟩)
  | ⟨n, _ :: rest⟩ => .ok ((), ⟨n + 1, rest⟩)

/-- The next byte that is not white space, which stays unread. -/
def peekToken : Reader (Option UInt8) := fun c =>
  let c := c.skipSpace
  .ok (c.rest.head?, c)

def word : Bytes → Reader Unit
  | [] => pure ()
  | expected :: more => do
    match ← next? with
    | none => failHere .endInValue
    | some b => if b == expected then word more else failHere .wordExpected

def demand {α : Type} : Except Mismatch α → Reader α
  | .ok a => pure a
  | .error m => mismatch m

end Reader

/-- The rest of `null`, `true` and `false` after their first letters. -/
def ull : Bytes := [0x75, 0x6C, 0x6C]
def rue : Bytes := [0x72, 0x75, 0x65]
def alse : Bytes := [0x61, 0x6C, 0x73, 0x65]

@[match_pattern] abbrev letterN : UInt8 := 0x6E
@[match_pattern] abbrev letterT : UInt8 := 0x74
@[match_pattern] abbrev letterF : UInt8 := 0x66
@[match_pattern] abbrev letterU : UInt8 := 0x75
@[match_pattern] abbrev letterR : UInt8 := 0x72
@[match_pattern] abbrev letterB : UInt8 := 0x62
@[match_pattern] abbrev letterE : UInt8 := 0x65
@[match_pattern] abbrev capitalE : UInt8 := 0x45

/-- Reads a whole text: one value, and nothing but white space around it. -/
def Reader.run {α : Type} (r : Reader α) (s : Bytes) : Except Error α := do
  let (a, c) ← r (Cursor.ofBytes s)
  let (b, c) ← peekToken c
  match b with
  | none => .ok a
  | some _ => .error ⟨.fault .trailingText, c.sight⟩

end TargetQuery.Json
