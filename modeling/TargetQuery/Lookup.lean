import TargetQuery.Frontend
import TargetQuery.Machine.World
import TargetQuery.Settings.Basic

/-!
# Looking for the frontend

A path in the settings settles the matter. Otherwise the environment may name the executable, by a
path or by a bare name; and at last the usual names are searched for. Bare names are looked for in
the directories of the search path, in their order.

The search asks few things of a machine: whether a path leads to a file, whether the file can be
run, and what the path is from the root. It is written for whatever gives these answers, and a world
is one machine that does.
-/

namespace TargetQuery

/-- Where the frontend is looked for. -/
structure Toolchain where
  /-- The executable that the settings name. -/
  configured : Option Path := none
  /-- The executable that the environment names, as a path or a bare name. -/
  override : Option Bytes := none
  /-- The directories to search, with colons between them. -/
  searchPath : Option Bytes := none

namespace Toolchain

/-- The toolchain of the surroundings. An empty override is none. -/
def inWorld (configured : Option Path) (w : World) : Toolchain where
  configured
  override := (w.environmentValue? Frontend.override).filter (!·.isEmpty)
  searchPath := w.environmentValue? "PATH"

/-- The toolchain that the settings of a project choose. -/
def ofSettings (s : Settings) (w : World) : Toolchain := inWorld s.frontend w

/-- Leaves out what the environment names. -/
def withoutOverride (t : Toolchain) : Toolchain := { t with override := none }

def searching (t : Toolchain) (directories : Bytes) : Toolchain :=
  { t with searchPath := some directories }

end Toolchain

namespace Lookup

/-- What the search sees of a machine. Relative paths are followed from the working directory. -/
structure View where
  home : Path
  /-- The working directory. -/
  directory : Path
  isFile : Path → Bool
  isExecutable : Path → Bool
  /-- The path from the root of what a path leads to, if it can be told. -/
  realPath? : Path → Option Path

/-- What the search sees of a world. -/
def View.ofWorld (w : World) : View where
  home := w.home
  directory := w.directory
  isFile := w.files.isFile w.here
  isExecutable := w.files.isExecutable w.here
  realPath? p :=
    match w.files.locate w.here p with
    | .ok (place, _) => some (FileTree.render place)
    | .error _ => none

/-- The directories of a search path. Every colon separates two of them, and an empty one counts. -/
def directories (searchPath : Bytes) : List Bytes := Bytes.cut Ascii.colon searchPath

/-- The component that stands for the home directory. -/
def tilde : Bytes := [0x7E]

/-- The name of a component as it is added to a path. -/
def componentBytes : Path.Component → Bytes
  | .root => [Ascii.slash]
  | .here => Path.dot
  | .parent => Path.dotDot
  | .name s => s

def extend (p : Path) (components : List Path.Component) : Path :=
  components.foldl (fun p c => p.join ⟨componentBytes c⟩) p

/-- Whether a path begins with the component that stands for the home directory. -/
def beginsWithTilde (p : Path) : Bool := p.components.head? == some (.name tilde)

/-- A path where the home directory stands for a tilde in front. -/
def expandHome (home p : Path) : Path :=
  if beginsWithTilde p then extend home p.components.tail else p

def absoluteFrom (directory p : Path) : Path :=
  if p.isAbsolute then p
  else extend directory (p.components.dropWhile (· == .here))

/-- A directory of the search path. A tilde that is left in front after the home directory has been
put in keeps the path as it is; other paths are seen from the root. -/
def searched (v : View) (d : Path) : Path :=
  let d := expandHome v.home d
  if beginsWithTilde d then d else absoluteFrom v.directory d

/-- The paths at which an executable may be. A name with several components is one path; others are
looked for in the directories of the search path, if there is one. -/
def candidates (v : View) (searchPath : Option Bytes) (name : Path) : List Path :=
  if 1 < name.components.length then [absoluteFrom v.directory name]
  else match searchPath with
    | none => []
    | some s => (directories s).map fun d => (searched v ⟨d⟩).join name

/-- A path seen from the root, or as it is if that cannot be told. -/
def canonical (v : View) (p : Path) : Path :=
  if p.isAbsolute then p else (v.realPath? p).getD p

/-- The first candidate that can be run, seen from the root. -/
def firstExecutable (v : View) (searchPath : Option Bytes) (name : Path) : Option Path :=
  ((candidates v searchPath name).find? v.isExecutable).map (canonical v)

end Lookup

namespace Toolchain

open Lookup

/-- The usual names, one after the other; with what has been searched before. -/
def searchByName (t : Toolchain) (v : View) :
    List String → List String → Except LookupError Path × List Notice
  | searched, [] => (.error (.notFound searched), [])
  | searched, name :: names =>
    match firstExecutable v t.searchPath (Path.ofString name) with
    | some path =>
      (.ok path, [.log .debug ("Found " ++ Frontend.name ++ " on PATH: " ++ path.display)])
    | none => t.searchByName v (searched ++ ["`" ++ name ++ "` on PATH"]) names

/-- The search for the frontend: what it gives, and what it says on the way. -/
def search (t : Toolchain) (v : View) : Except LookupError Path × List Notice :=
  match t.configured with
  | some configured =>
    if v.isFile configured then
      let path := canonical v configured
      (.ok path, [.log .debug ("Using configured " ++ Frontend.name ++ ": " ++ path.display)])
    else (.error (.configuredMissing configured), [])
  | none =>
    match t.override with
    | none => t.searchByName v [] Frontend.executables
    | some value =>
      match firstExecutable v t.searchPath ⟨value⟩ with
      | some path =>
        (.ok path, [.log .debug
          ("Using " ++ Frontend.name ++ " from " ++ Frontend.override ++ ": " ++ path.display)])
      | none =>
        let named := Frontend.override ++ "=" ++ Utf8.lossy value
        let (found, notices) := t.searchByName v [named] Frontend.executables
        (found, .log .warning (named ++ " does not name an executable") :: notices)

/-- Looks for the frontend in the surroundings. -/
def find (t : Toolchain) : Action (Except LookupError Path) := do
  let (found, notices) := t.search (View.ofWorld (← get))
  modify fun w => { w with notices := w.notices ++ notices }
  pure found

end Toolchain

end TargetQuery
