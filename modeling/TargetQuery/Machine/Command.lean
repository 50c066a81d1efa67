import TargetQuery.Machine.World

/-!
# Commands

A program with its arguments, as handed to the system, and what is left of it after it has run. How
programs run is not settled here: whoever runs commands is given as a `Launcher`.
-/

namespace TargetQuery

/-- A program to be run. -/
structure Command where
  program : Path
  arguments : List Bytes := []
  /-- The directory to run in, if it is not that of the caller. -/
  directory? : Option Path := none
  /-- Whether the program is to take the place of the running one. -/
  replaces : Bool := false

/-- The end of a program. -/
structure Completed where
  /-- The exit status; absent if a signal ended the program. -/
  status? : Option Int
  output : Bytes
  errors : Bytes
deriving DecidableEq, Repr

namespace Command

inductive Step where
  | argument (a : Bytes)
  | arguments (as : List Bytes)
  | directory (p : Path)

/-- Takes one step. Arguments are added behind those that are there; the directory is replaced. -/
def apply (c : Command) : Step → Command
  | .argument a => { c with arguments := c.arguments ++ [a] }
  | .arguments as => { c with arguments := c.arguments ++ as }
  | .directory p => { c with directory? := some p }

/-- The command as text for people: the program and its arguments with a space between them. -/
def display (c : Command) : String :=
  " ".intercalate (c.program.display :: c.arguments.map Utf8.lossy)

end Command

namespace Completed

/-- A program succeeds by ending with status zero. -/
def succeeded (c : Completed) : Bool := c.status? == some 0

end Completed

/-- Runs commands: an empty standard input, and both output streams captured. -/
abbrev Launcher := Command → Action (Except SystemFailure Completed)

/-- An action during which another program may take the place of the running one. The end of that
program is then the end of the whole action. -/
abbrev Course := ExceptT Completed Action

end TargetQuery
