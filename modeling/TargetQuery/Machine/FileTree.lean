import TargetQuery.Path
import TargetQuery.Machine.Failure

/-!
# File trees

A file system as a value: which names exist below the root, and what stands there. A path is
followed from left to right, through directories only; a failure says what stood in the way. Every
directory can be searched and changed; what may be done with a file is up to its mode, of which the
part for its owner counts.
-/

namespace TargetQuery

/-- The names from the root down to a file or directory. -/
abbrev Place := List Bytes

/-- What stands at a place. -/
inductive Node where
  | directory
  | file (mode : Nat) (content : Bytes)
  /-- Holds nothing. What is written to it is forgotten, or refused if it is full. -/
  | device (full : Bool)
deriving DecidableEq, Repr

/-- The files and directories below the root, which always exists. -/
structure FileTree where
  entries : List (Place × Node) := []
deriving Inhabited

namespace FileTree

def render (place : Place) : Path :=
  match place with
  | [] => ⟨[Ascii.slash]⟩
  | names => ⟨names.flatMap fun name => Ascii.slash :: name⟩

def find? (t : FileTree) (place : Place) : Option Node :=
  if place = [] then some .directory else t.entries.lookup place

/-- The tree with something else, or something new, at a place. -/
def put (t : FileTree) (place : Place) (node : Node) : FileTree :=
  if t.entries.any (·.1 == place) then
    ⟨t.entries.map fun e => if e.1 == place then (place, node) else e⟩
  else ⟨t.entries ++ [(place, node)]⟩

def erase (t : FileTree) (place : Place) : FileTree :=
  ⟨t.entries.filter fun e => e.1 != place⟩

def below (t : FileTree) (place : Place) : List Place :=
  (t.entries.map (·.1)).filter fun p => p != [] && p.dropLast == place

/-- The greatest number of bytes in a name. -/
def longestName : Nat := 255

/-- The greatest number of bytes in a path. -/
def longestPath : Nat := 4095

/-- Follows the stretches between slashes. All but the last must lead to directories. -/
def walk (t : FileTree) : Place → List Bytes → Except SystemFailure Place
  | here, [] => .ok here
  | here, stretch :: more =>
    match t.find? here with
    | none => .error .notFound
    | some (.file ..) | some (.device _) => .error .notADirectory
    | some .directory =>
      if stretch = [] ∨ stretch = Path.dot then t.walk here more
      else if stretch = Path.dotDot then t.walk here.dropLast more
      else if longestName < stretch.length then .error .nameTooLong
      else t.walk (here ++ [stretch]) more

/-- Follows stretches from where a path begins, if a path of this form can be followed at all. -/
def follow (t : FileTree) (here : Place) (p : Path) (stretches : List Bytes) :
    Except SystemFailure Place :=
  if p.bytes.contains Ascii.nul then .error .zeroByteInPath
  else if p.bytes = [] then .error .notFound
  else if longestPath < p.bytes.length then .error .nameTooLong
  else t.walk (if p.isAbsolute then [] else here) stretches

/-- The place that a path names, seen from a directory. Something need not stand there, but
everything before the last name must be a directory. -/
def resolve (t : FileTree) (here : Place) (p : Path) : Except SystemFailure Place :=
  t.follow here p (Path.splitSlash p.bytes)

/-- What a new file or directory would be called: the directory that would hold it, and its name. A
path that ends with a dot or a pair of dots, or is the root, has no name to give. -/
def resolveNew (t : FileTree) (here : Place) (p : Path) :
    Except SystemFailure (Option (Place × Bytes)) := do
  let unnamed := t.follow here p (Path.splitSlash p.bytes)
  match (Path.splitSlash p.bytes).reverse.dropWhile (· == []) with
  | [] => unnamed.map fun _ => none
  | name :: before =>
    if name = Path.dot ∨ name = Path.dotDot then unnamed.map fun _ => none
    else
      -- The empty stretch makes sure that the holder is a directory.
      let holder ← t.follow here p (before.reverse ++ [[]])
      .ok (some (holder, name))

/-- The place that a path names, and what stands there. -/
def locate (t : FileTree) (here : Place) (p : Path) : Except SystemFailure (Place × Node) := do
  let place ← t.resolve here p
  match t.find? place with
  | some node => .ok (place, node)
  | none => .error .notFound

/-- Whether something stands where a path leads. -/
def exists? (t : FileTree) (here : Place) (p : Path) : Bool :=
  match t.locate here p with
  | .ok _ => true
  | .error _ => false

def isDirectory (t : FileTree) (here : Place) (p : Path) : Bool :=
  match t.locate here p with
  | .ok (_, .directory) => true
  | _ => false

def isFile (t : FileTree) (here : Place) (p : Path) : Bool :=
  match t.locate here p with
  | .ok (_, .file ..) => true
  | _ => false

/-- Whether a mode lets the owner of a file read it. -/
def modeReads (mode : Nat) : Bool := mode &&& 0o400 != 0

/-- Whether a mode lets the owner of a file change it. -/
def modeWrites (mode : Nat) : Bool := mode &&& 0o200 != 0

/-- Whether a mode lets the owner of a file run it. -/
def modeRuns (mode : Nat) : Bool := mode &&& 0o100 != 0

/-- Whether a path leads to a file that may be run. -/
def isExecutable (t : FileTree) (here : Place) (p : Path) : Bool :=
  match t.locate here p with
  | .ok (_, .file mode _) => modeRuns mode
  | _ => false

def read (t : FileTree) (here : Place) (p : Path) : Except SystemFailure Bytes := do
  match ← t.locate here p with
  | (_, .file mode content) => if modeReads mode then .ok content else .error .permissionDenied
  | (_, .device _) => .ok []
  | (_, .directory) => .error .isADirectory

def readText (t : FileTree) (here : Place) (p : Path) : Except SystemFailure String := do
  let content ← t.read here p
  match Utf8.decode? content with
  | some s => .ok s
  | none => .error .notText

/-- Whether a path can only be that of a directory, by the slash at its end. -/
def namesDirectory (p : Path) : Bool := p.bytes.getLast? == some Ascii.slash

/-- The tree with a file's content replaced. A file that was not there is made, with the given mode.
-/
def write (t : FileTree) (here : Place) (p : Path) (mode : Nat) (content : Bytes) :
    Except SystemFailure FileTree := do
  match ← t.resolveNew here p with
  | none => .error .isADirectory
  | some (holder, name) =>
    let place := holder ++ [name]
    if namesDirectory p then .error .isADirectory
    else if longestName < name.length then .error .nameTooLong
    else match t.find? place with
      | some .directory => .error .isADirectory
      | some (.file old _) =>
        if modeWrites old then .ok (t.put place (.file old content)) else .error .permissionDenied
      | some (.device full) => if full && content != [] then .error .noSpace else .ok t
      | none => .ok (t.put place (.file mode content))

def makeDirectory (t : FileTree) (here : Place) (p : Path) : Except SystemFailure FileTree := do
  match ← t.resolveNew here p with
  | none => .error .alreadyExists
  | some (holder, name) =>
    let place := holder ++ [name]
    if longestName < name.length then .error .nameTooLong
    else match t.find? place with
      | some _ => .error .alreadyExists
      | none => .ok (t.put place .directory)

/-- Makes a directory and those above it, as far as they are missing. The fuel bounds the number of
components. -/
def makeDirectories (t : FileTree) (here : Place) : Nat → Path → Except SystemFailure FileTree
  | 0, _ => .ok t
  | fuel + 1, p =>
    let settle (t : FileTree) (failure : SystemFailure) : Except SystemFailure FileTree :=
      if t.isDirectory here p then .ok t else .error failure
    if p.components.isEmpty then .ok t
    else match t.makeDirectory here p with
      | .ok made => .ok made
      | .error .notFound =>
        match p.parent? with
        | none => .error (.other "failed to create whole tree")
        | some parent => do
          let t ← t.makeDirectories here fuel parent
          match t.makeDirectory here p with
          | .ok made => .ok made
          | .error failure => settle t failure
      | .error failure => settle t failure

/-- Makes a directory and those above it, as far as they are missing. -/
def makeAllDirectories (t : FileTree) (here : Place) (p : Path) : Except SystemFailure FileTree :=
  t.makeDirectories here (p.bytes.length + 1) p

end FileTree

end TargetQuery
