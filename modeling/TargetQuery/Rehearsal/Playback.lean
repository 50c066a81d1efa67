import TargetQuery.Ask

/-!
# Playback

The plainest stand-in for the machine: jobs get prepared outcomes, one after the other, and the last
outcome serves for all jobs that come after it.
-/

namespace TargetQuery

/-- The state of a playback. -/
structure Playback where
  /-- Where the frontend is, if there is one. -/
  frontend? : Option Path := none
  /-- The outcomes still to come. -/
  outcomes : List (Job → Except ExecutionError Bytes) := []
  /-- How often the frontend has been looked for. -/
  lookups : Nat := 0
  /-- The commands of the jobs that have been run. -/
  commands : List String := []

namespace Playback

def lookup : StateM Playback (Except LookupError Path) := do
  let p ← get
  set { p with lookups := p.lookups + 1 }
  match p.frontend? with
  | some path => pure (.ok path)
  | none => pure (.error (.notFound ["mock"]))

/-- The outcomes that are left after one. The last one stays. -/
def rest {α : Type} : List α → List α
  | [] => []
  | [a] => [a]
  | _ :: more => more

def execute (j : Job) : StateM Playback (Except ExecutionError Bytes) := do
  let p ← get
  set { p with outcomes := rest p.outcomes, commands := p.commands ++ [j.displayCommand] }
  match p.outcomes with
  | outcome :: _ => pure (outcome j)
  | [] => pure (.ok [])

/-- Those who take part in a query that is played back. -/
def collaborators : Collaborators (StateM Playback) where
  resolve := lookup
  execute := execute
  note _ _ := pure ()

end Playback

end TargetQuery
