import TargetQuery.Path

/-!
# Locations

What a job reads, writes or runs is described, not opened: a file by its path, or one of the
standard streams. On a command line a stream is written as a dash.
-/

namespace TargetQuery

/-- A file or stream as a job sees it. -/
inductive Location where
  | absolute (path : Path)
  /-- A path seen from the directory in which the job runs. -/
  | relative (path : Path)
  /-- A file that exists only while the job runs. -/
  | temporary (path : Path)
  | standardInput
  | standardOutput
deriving BEq, Inhabited

namespace Location

/-- The location of a file, absolute or relative as its path is. -/
def ofPath (p : Path) : Location := if p.isAbsolute then .absolute p else .relative p

def path? : Location → Option Path
  | .absolute p | .relative p | .temporary p => some p
  | .standardInput | .standardOutput => none

def isStandardStream (l : Location) : Bool := l.path?.isNone

/-- The location on a command line, byte for byte. -/
def render (l : Location) : Bytes :=
  match l.path? with
  | some p => p.bytes
  | none => [Ascii.minus]

def display (l : Location) : String :=
  match l.path? with
  | some p => p.display
  | none => "-"

end Location

end TargetQuery
