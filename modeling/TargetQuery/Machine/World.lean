import TargetQuery.Machine.FileTree

/-!
# Surroundings

What a program sees of its machine: the files, the directory it runs in and the environment, and
what it has said so far on its error stream. The whole is a value, and an action is a function on
it.
-/

namespace TargetQuery

/-- How much a notice matters. -/
inductive Level where
  | debug
  | info
  | warning
deriving DecidableEq, Repr

/-- Something said on the error stream. -/
inductive Notice where
  /-- A line of the log, which is shown from a certain level on. -/
  | log (level : Level) (text : String)
  /-- Text that is always shown. -/
  | plain (text : Bytes)
deriving DecidableEq, Repr

/-- What a program sees of its machine. -/
structure World where
  files : FileTree := {}
  /-- The directory in which the program runs. -/
  here : Place := []
  environment : List (String × Bytes) := []
  /-- The home directory that the account has if the environment names none. -/
  accountHome : Path := ⟨[]⟩
  notices : List Notice := []
deriving Inhabited

namespace World

def environmentValue? (w : World) (name : String) : Option Bytes := w.environment.lookup name

/-- The path of the directory in which the program runs. -/
def directory (w : World) : Path := FileTree.render w.here

/-- The home directory that the environment names. -/
def environmentHome? (w : World) : Option Path :=
  match w.environmentValue? "HOME" with
  | none | some [] => none
  | some home => some ⟨home⟩

def home (w : World) : Path := w.environmentHome?.getD w.accountHome

/-- The directory for files that do not stay. -/
def temporaryDirectory (w : World) : Path :=
  match w.environmentValue? "TMPDIR" with
  | some p => ⟨p⟩
  | none => Path.ofString "/tmp"

end World

/-- Something done in the surroundings. -/
abbrev Action := StateM World

def log (level : Level) (text : String) : Action Unit :=
  modify fun w => { w with notices := w.notices ++ [.log level text] }

/-- Says something on the error stream. -/
def say (text : String) : Action Unit :=
  modify fun w => { w with notices := w.notices ++ [.plain (Utf8.encode text)] }

end TargetQuery
