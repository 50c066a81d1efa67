import TargetQuery.Text.Utf8

/-!
# Paths

A path is a byte string in which slashes separate names. Two paths are the same (`==`) when they
have the same components: repeated and trailing slashes and inner dots do not count, a leading dot
and every pair of dots do. Equality in the sense of `=` is that of the bytes.
-/

namespace TargetQuery

/-- A file system path, byte for byte. -/
structure Path where
  bytes : Bytes

namespace Path

def ofString (s : String) : Path := ⟨Utf8.encode s⟩

instance : Inhabited Path := ⟨⟨[]⟩⟩

inductive Component where
  | root
  | here
  | parent
  | name (bytes : Bytes)
deriving DecidableEq, Repr

def splitSlash (s : Bytes) : List Bytes := Bytes.cut Ascii.slash s

/-- The bytes between slashes that mean this directory. -/
def dot : Bytes := [Ascii.dot]

/-- The bytes between slashes that mean the parent directory. -/
def dotDot : Bytes := [Ascii.dot, Ascii.dot]

/-- The component that a stretch stands for. Empty stretches and dots stand for none. -/
def componentOf? (s : Bytes) : Option Component :=
  if s = [] ∨ s = dot then none
  else if s = dotDot then some .parent
  else some (.name s)

/-- A path is absolute when it begins with a slash. -/
def isAbsolute (p : Path) : Bool := p.bytes.head? == some Ascii.slash

def components (p : Path) : List Component :=
  let stretches := splitSlash p.bytes
  let steps := stretches.filterMap componentOf?
  if p.isAbsolute then .root :: steps
  else if stretches.head? = some dot then .here :: steps
  else steps

instance : BEq Path := ⟨fun p q => p.components == q.components⟩

/-- The path as text for people, which is lossy. -/
def display (p : Path) : String := Utf8.lossy p.bytes

/-- The second path seen from the first. An absolute path is the same from everywhere. -/
def join (p q : Path) : Path :=
  if q.isAbsolute then q
  else match p.bytes.getLast? with
    | none => q
    | some last =>
      if last == Ascii.slash then ⟨p.bytes ++ q.bytes⟩ else ⟨p.bytes ++ Ascii.slash :: q.bytes⟩

/-- Stretches put together again. -/
def joinSlash : List Bytes → Bytes
  | [] => []
  | [s] => s
  | s :: more => s ++ Ascii.slash :: joinSlash more

/-- Whether a stretch at the given place is a component. -/
def counts (stretch : Bytes × Nat) : Bool :=
  stretch.1 != [] && (stretch.1 != dot || stretch.2 == 0)

/-- The path without its last component, if it has one besides the root. -/
def parent? (p : Path) : Option Path :=
  let stretches := (splitSlash p.bytes).zipIdx
  match (stretches.filter counts).reverse with
  | [] => none
  | [_] => some ⟨if p.isAbsolute then [Ascii.slash] else []⟩
  | _ :: (_, i) :: _ =>
    some ⟨joinSlash ((stretches.take (i + 1)).map (·.1))⟩

end Path

end TargetQuery
