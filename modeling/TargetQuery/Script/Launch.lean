import TargetQuery.Script.Run

/-!
# Starting programs

A command becomes a process with an empty input, and both of its output streams are captured. What
it has done to the files stays when it has ended.

The shell and its utilities stand in for the programs of a machine, so that the main program can be
run without one. They are one launcher among all that there may be. Only `Main` uses them, and no
theorem is about them: what is proved about commands holds for every launcher.
-/

namespace TargetQuery.Script

def holdsZero (c : TargetQuery.Command) : Bool :=
  let parts := c.program.bytes :: c.arguments ++ (c.directory?.map Path.bytes).toList
  parts.any fun s => s.contains Ascii.nul

def directoryOf (w : World) (c : TargetQuery.Command) : Except SystemFailure Place :=
  match c.directory? with
  | none => .ok w.here
  | some p =>
    match w.files.locate w.here p with
    | .ok (place, .directory) => .ok place
    | .ok _ => .error .notADirectory
    | .error failure => .error failure

def firstProcess : Nat := 4242

/-- How deep commands can be nested, and how often loops can go round. -/
def patience : Nat := 1000000

def begun (w : World) : Shell where
  world := w
  streams := #[.source [], .sink [], .sink []]
  descriptors := [(0, 0), (1, 1), (2, 2)]
  process := firstProcess
  parent := firstProcess - 1
  nextProcess := firstProcess + 1

/-- Runs an image to its end in some surroundings; with the files as they are then. -/
def complete (w : World) (image : Image) : Completed × FileTree :=
  let (result, after) := (runImage patience image).run.run (begun w)
  let status? : Option Int := match result with
    | .error (.killed ..) => none
    | _ => some (after.status % 256)
  (⟨status?, after.collected 1, after.collected 2⟩, after.world.files)

/-- Runs commands on the files of the surroundings. A text file that names no program is run by the
shell if it takes the place of the running program. -/
def launch : Launcher := fun c => do
  let w ← get
  if holdsZero c then pure (.error .zeroByteInCommand)
  else match directoryOf w c with
    | .error failure => pure (.error failure)
    | .ok here =>
      let fallback : Image.Fallback := if c.replaces then .always else .never
      match Image.ofName { w with here } (Image.searchPath w) fallback c.program.bytes
          c.arguments with
      | .error failure => pure (.error failure)
      | .ok image =>
        let (completed, files) := complete { w with here } image
        set { w with files }
        pure (.ok completed)

end TargetQuery.Script
