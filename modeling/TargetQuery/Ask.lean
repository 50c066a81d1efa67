import TargetQuery.Diagnostic
import TargetQuery.Execution
import TargetQuery.Query
import TargetQuery.TargetInfo.Json

/-!
# Asking the frontend

A query from end to end: the frontend is looked for once, its job is run once, and what it prints is
read. Nothing is tried again. Who looks and who runs is left open, so that the same definition
serves the real machine and a rehearsal.
-/

namespace TargetQuery

/-- Why a query has no answer. -/
inductive QueryError where
  | lookup (error : LookupError)
  | execution (error : ExecutionError)
  | decoding (error : TargetInfo.DecodeError)

namespace QueryError

def message : QueryError → String
  | .lookup e => e.message
  | .execution e => e.message
  | .decoding e => e.message

/-- The text of what lies behind the error, if something does. -/
def cause? : QueryError → Option String
  | .lookup _ => none
  | .execution e => e.cause?.map SystemFailure.message
  | .decoding e => some e.problem.message

/-- What people are told about the error. -/
def diagnostic (error : QueryError) : Diagnostic :=
  let start := Diagnostic.ofError error.message
  match error with
  | .lookup (.configuredMissing _) => start.withSuggestion Advice.fixConfiguredFrontend
  | .lookup _ =>
    (start.withSuggestion Advice.setFrontendVariable).withSuggestion Advice.installToolchain
  | .execution (.failed ..) => start.withSuggestion Advice.checkTarget
  | .execution _ => start
  | .decoding (.malformed problem) =>
    (start.withContext problem.message).withSuggestion Advice.checkFrontendVersion
  | .decoding (.wrongShape _) => start.withSuggestion Advice.checkFrontendVersion

end QueryError

/-- Those who take part in a query. -/
structure Collaborators (m : Type → Type) where
  /-- Looks for the frontend. -/
  resolve : m (Except LookupError Path)
  /-- Runs a job and gives what it printed. -/
  execute : Job → m (Except ExecutionError Bytes)
  /-- Takes note of what happens. -/
  note : Level → String → m Unit

variable {m : Type → Type} [Monad m]

def report (note : Level → String → m Unit) (info : TargetInfo) : m Unit := do
  note .info ("Target: " ++ info.target.triple.text)
  match info.variant with
  | some variant => note .info ("Target variant: " ++ variant.triple.text)
  | none => pure ()

/-- Asks the frontend for target information. -/
def ask (c : Collaborators m) (q : Query) : m (Except QueryError TargetInfo) := do
  match q.jobFor (← c.resolve) with
  | .error e => pure (.error (.lookup e))
  | .ok job =>
    c.note .debug ("Querying target info: " ++ job.displayCommand)
    match ← c.execute job with
    | .error e => pure (.error (.execution e))
    | .ok output =>
      match TargetInfo.decode output with
      | .error e => pure (.error (.decoding e))
      | .ok info =>
        report c.note info
        pure (.ok info)

end TargetQuery
