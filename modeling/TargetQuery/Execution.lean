import TargetQuery.Job.Basic
import TargetQuery.Machine.Command
import TargetQuery.ResponseFile

/-!
# Execution

Jobs run as commands. Arguments go into a response file only if the job allows it and they are too
long; a job that runs in place ends the running program unless the tool could not be started.
-/

namespace TargetQuery

/-- Why a job gave no output. -/
inductive ExecutionError where
  | spawn (program : Path) (cause : SystemFailure)
  | failed (command : String) (status? : Option Int) (errors : String)
  | inPlace (program : Path) (cause : SystemFailure)
  | responseFile (cause : SystemFailure)
  | unsupportedTool (tool : Location)

namespace ExecutionError

def message : ExecutionError → String
  | .spawn program _ => "failed to spawn `" ++ program.display ++ "`"
  | .failed command status errors =>
    "`" ++ command ++ "` failed with exit code " ++ (status.map toString).getD "none" ++ "\n"
      ++ errors
  | .inPlace program _ => "failed to replace the current process with `" ++ program.display ++ "`"
  | .responseFile _ => "failed to write response file"
  | .unsupportedTool tool => "`" ++ tool.display ++ "` is not an executable path"

def cause? : ExecutionError → Option SystemFailure
  | .spawn _ cause | .inPlace _ cause | .responseFile cause => some cause
  | .failed .. | .unsupportedTool _ => none

end ExecutionError

/-- Runs jobs as commands. -/
structure Executor where
  launch : Launcher
  /-- The size above which arguments go into a response file. -/
  limit : Nat := ResponseFile.defaultLimit
  /-- Where jobs run, if not in the directory of the running program. -/
  workingDir? : Option Path := none
  /-- Where response files are made, if not in the directory for temporary files. -/
  tempDir? : Option Path := none

/-- A command about to run, and the file that holds its arguments, if there is one. -/
structure Prepared where
  command : Command
  spilled? : Option Path := none

namespace Executor

def command (e : Executor) (program : Path) (arguments : List Bytes) : Command :=
  { program, arguments, directory? := e.workingDir? }

def prepare (e : Executor) (j : Job) : Action (Except ExecutionError Prepared) := do
  match j.tool.path? with
  | none => pure (.error (.unsupportedTool j.tool))
  | some program =>
    if j.responseFiles && ResponseFile.isNeeded j.argv e.limit then
      let directory := e.tempDir?.getD (← get).temporaryDirectory
      match ← ResponseFile.write j.argv directory with
      | .error failure => pure (.error (.responseFile failure))
      | .ok file =>
        log .debug ("Passing " ++ toString j.argv.length ++ " argument(s) through response file "
          ++ file.display)
        let argument := Argument.responseFile (.temporary file)
        pure (.ok { command := e.command program [argument.render], spilled? := some file })
    else pure (.ok { command := e.command program j.argv })

/-- What the end of a command means. -/
def outcome (c : Command) (ended : Completed) : Except ExecutionError Bytes :=
  if ended.succeeded then .ok ended.output
  else .error (.failed c.display ended.status? (Utf8.lossy ended.errors))

/-- Runs a job and gives what it printed. -/
def execute (e : Executor) (j : Job) : Course (Except ExecutionError Bytes) := do
  match ← (e.prepare j : Action _) with
  | .error error => pure (.error error)
  | .ok prepared =>
    let c := { prepared.command with replaces := j.inPlace }
    log .debug ("Running " ++ j.kind.name ++ " job: " ++ c.display)
    let ended ← (e.launch c : Action _)
    if j.inPlace then
      match ended with
      | .ok completed => throw completed
      | .error failure => pure (.error (.inPlace c.program failure))
    else
      match ended with
      | .error failure =>
        prepared.spilled?.forM fun file => ResponseFile.discard file
        pure (.error (.spawn c.program failure))
      | .ok completed =>
        prepared.spilled?.forM fun file => ResponseFile.discard file
        pure (outcome c completed)

end Executor

end TargetQuery
