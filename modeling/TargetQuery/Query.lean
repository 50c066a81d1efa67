import TargetQuery.Frontend
import TargetQuery.Job.Basic
import TargetQuery.Triple

/-!
# Queries

A query names the target to be described. Everything in it is independent of everything else; what
it leaves out is for the frontend to decide. The job of a query is built from the path of the
frontend alone.
-/

namespace TargetQuery

/-- What the frontend is asked. -/
structure Query where
  /-- The target; the host if absent. -/
  target : Option Triple := none
  targetVariant : Option Triple := none
  sdk : Option Location := none
  resourceDir : Option Location := none
  /-- The frontend takes the place of the running program. -/
  inPlace : Bool := false
deriving BEq

namespace Query

def labelled (label : String) (value : Option Argument) : List Argument :=
  match value with
  | some v => [.flag label, v]
  | none => []

def arguments (q : Query) : List Argument :=
  [.flag "-frontend", .flag "-print-target-info"]
    ++ labelled "-target" (q.target.map fun t => .flag t.text)
    ++ labelled "-target-variant" (q.targetVariant.map fun t => .flag t.text)
    ++ labelled "-sdk" (q.sdk.map .path)
    ++ labelled "-resource-dir" (q.resourceDir.map .path)

def job (q : Query) (frontend : Path) : Job where
  kind := .printTargetInfo
  tool := .absolute frontend
  arguments := q.arguments
  outputs := [{ file := .standardOutput, fileType := .jsonTargetInfo }]
  inPlace := q.inPlace

/-- The job of a query, if the frontend was found at an absolute path. -/
def jobFor (q : Query) : Except LookupError Path → Except LookupError Job
  | .error e => .error e
  | .ok frontend =>
    if frontend.isAbsolute then .ok (q.job frontend) else .error (.notAbsolute frontend)

end Query

end TargetQuery
