import TargetQuery.CommandLine.Run
import TargetQuery.Script.Launch

/-!
# The program

The outer layer: takes in what the commands look at, runs them on it, prints, and keeps the files
that have changed. Frontends run within the model of a machine, so those that are scripts can be
asked. The right to run a file is not visible from here; every file that can be read counts as
having it.
-/

namespace TargetQuery.Program

/-- The variables that the commands look at. -/
def variableNames : List String := ["HOME", "PATH", "TMPDIR", Frontend.override]

/-- How much of a file is taken in. -/
def maxBytes : USize := 1048576

/-- The files with one more, and the directories above it. -/
def withFile (files : FileTree) (p : Path) (content : Bytes) : FileTree :=
  match files.makeAllDirectories [] (p.parent?.getD p) with
  | .error _ => files
  | .ok made =>
    match made.write [] p 0o755 content with
    | .ok written => written
    | .error _ => files

def frontendPaths (w : World) : List Path :=
  let settings := ((Settings.loadFor w.directory).run w).1
  let t := Toolchain.ofSettings settings w
  let names := t.override.toList.map Path.mk ++ Frontend.executables.map Path.ofString
  t.configured.toList ++ names.flatMap (Lookup.candidates (Lookup.View.ofWorld w) t.searchPath)

/-- The start of a file, if it can be read. -/
def content? (p : Path) : IO (Option Bytes) := do
  match Utf8.decode? p.bytes with
  | none => pure none
  | some name =>
    try
      let handle ← IO.FS.Handle.mk name IO.FS.Mode.read
      let bytes ← handle.read maxBytes
      pure (some bytes.toList)
    catch _ => pure none

/-- The surroundings with the files at some paths taken in. -/
def takeIn (w : World) (paths : List Path) : IO World := do
  let mut files := w.files
  for p in paths do
    let p := w.directory.join p
    match ← content? p with
    | some content => files := withFile files p content
    | none => pure ()
  pure { w with files }

/-- The surroundings of the program, as far as its commands look at them. -/
def surroundings : IO World := do
  let mut environment := []
  for name in variableNames do
    match ← IO.getEnv name with
    | some value => environment := environment ++ [(name, Utf8.encode value)]
    | none => pure ()
  let directory := Path.ofString (← IO.currentDir).toString
  let files := (Script.machine.makeAllDirectories [] directory).toOption.getD Script.machine
  let here := (files.resolve [] directory).toOption.getD []
  let w : World := { files, here, environment, accountHome := Path.ofString "/root" }
  let w ← takeIn w [Settings.userFile w, Settings.projectFile directory]
  takeIn w (frontendPaths w)

def keep (p : Path) (content : Bytes) : IO Unit := do
  match p.parent?.bind fun q => Utf8.decode? q.bytes, Utf8.decode? p.bytes with
  | some parent, some name =>
    IO.FS.createDirAll parent
    IO.FS.writeBinFile name ⟨content.toArray⟩
  | _, _ => pure ()

def keepChanges (before after : FileTree) : IO Unit := do
  for (place, node) in after.entries do
    match node with
    | .file _ content =>
      if before.find? place != some node then keep (FileTree.render place) content
    | .directory | .device _ => pure ()

end TargetQuery.Program

def main (arguments : List String) : IO UInt32 := do
  let w ← TargetQuery.Program.surroundings
  let command := TargetQuery.CommandLine.run TargetQuery.Script.launch
  let (ended, after) := (command (arguments.map TargetQuery.Utf8.encode)).run w
  TargetQuery.Program.keepChanges w.files after.files
  (← IO.getStdout).write ⟨ended.output.toArray⟩
  (← IO.getStderr).write ⟨ended.errors.toArray⟩
  pure (UInt32.ofNat (ended.status?.getD 1).toNat)
