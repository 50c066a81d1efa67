import TargetQuery.Ask

/-!
# Rehearsals

A rehearsal takes the place of the machine: the frontend is where it is said to be, and commands are
answered from expectations. The earliest expectation that describes the command and is not used up
answers; then the fallback, if there is one. Every job is recorded, whether it is answered or not.
-/

namespace TargetQuery

/-- The end of a command as it is rehearsed. -/
structure Reply where
  status : Int := 0
  output : String := ""
  errors : String := ""
deriving DecidableEq, Repr

namespace Reply

/-- The end of a command that prints something and succeeds. -/
def success (output : String) : Reply := { output }

def failure (status : Int) (errors : String) : Reply := { status, errors }

def succeeded (r : Reply) : Bool := r.status == 0

end Reply

inductive CommandPattern where
  | exact (text : String)
  | contains (text : String)
  | any
deriving DecidableEq, Repr

/-- Whether a text is found within another. -/
def occursIn (part : List Char) : List Char → Bool
  | [] => part.isEmpty
  | c :: rest => part.isPrefixOf (c :: rest) || occursIn part rest

def CommandPattern.accepts : CommandPattern → String → Bool
  | .exact text, command => command == text
  | .contains text, command => occursIn text.toList command.toList
  | .any, _ => true

/-- An answer that is ready for some commands. -/
structure Expectation where
  pattern : CommandPattern
  reply : Reply
  /-- How often it may be used; any number of times if absent. -/
  times? : Option Nat := none
  used : Nat := 0
deriving DecidableEq, Repr

namespace Expectation

/-- Whether it may be used once more. -/
def isAvailable (e : Expectation) : Bool :=
  match e.times? with
  | some n => e.used < n
  | none => true

def answers (e : Expectation) (command : String) : Bool :=
  e.pattern.accepts command && e.isAvailable

end Expectation

/-- The state of a rehearsal. -/
structure Rehearsal where
  /-- Where the frontend is, if there is one. -/
  frontend? : Option Path := none
  expectations : List Expectation := []
  fallback? : Option Reply := none
  /-- How often the frontend has been looked for. -/
  lookups : Nat := 0
  /-- The jobs that have been run, as commands and as they were. -/
  commands : List String := []
  jobs : List Job := []

/-- Some expectation has been used more or less often than it was to be. -/
structure Unmet where
  index : Nat
  used : Nat
  times : Nat
deriving DecidableEq, Repr

def Unmet.message (u : Unmet) : String :=
  "expectation " ++ toString u.index ++ " was used " ++ toString u.used ++ " times, expected "
    ++ toString u.times

namespace Rehearsal

/-- A rehearsal with a frontend in the directory for temporary files. -/
def inWorld (w : World) : Rehearsal where
  frontend? := some (w.temporaryDirectory.join (Path.ofString "swift-frontend"))

/-- Adds an expectation behind the others. -/
def expect (r : Rehearsal) (e : Expectation) : Rehearsal :=
  { r with expectations := r.expectations ++ [e] }

/-- Sets the answer to commands that nobody expects. -/
def setFallback (r : Rehearsal) (reply : Reply) : Rehearsal := { r with fallback? := some reply }

/-- Answers a command from the first expectation that can, which is then used once more. -/
def answer (command : String) : List Expectation → Option Reply × List Expectation
  | [] => (none, [])
  | e :: rest =>
    if e.answers command then (some e.reply, { e with used := e.used + 1 } :: rest)
    else
      let (reply, rest) := answer command rest
      (reply, e :: rest)

def lookup : StateM Rehearsal (Except LookupError Path) := do
  let r ← get
  set { r with lookups := r.lookups + 1 }
  match r.frontend? with
  | some p => pure (.ok p)
  | none => pure (.error (.notFound ["mock"]))

/-- Records a job and finds the answer to its command. -/
def perform (j : Job) : StateM Rehearsal (Option Reply) := do
  let r ← get
  let (reply, expectations) := answer j.displayCommand r.expectations
  set { r with expectations, commands := r.commands ++ [j.displayCommand], jobs := r.jobs ++ [j] }
  pure (reply <|> r.fallback?)

/-- What an answer means for a job. -/
def outcome (j : Job) : Option Reply → Except ExecutionError Bytes
  | none =>
    .error (.spawn (j.tool.path?.getD ⟨[]⟩) (.absent ("unexpected command: " ++ j.displayCommand)))
  | some reply =>
    if reply.succeeded then .ok (Utf8.encode reply.output)
    else .error (.failed j.displayCommand (some reply.status) reply.errors)

def execute (j : Job) : StateM Rehearsal (Except ExecutionError Bytes) := do
  pure (outcome j (← perform j))

/-- Whether all expectations were met, or else the first that was not. -/
def verifyFrom (index : Nat) : List Expectation → Except Unmet Unit
  | [] => .ok ()
  | e :: rest =>
    match e.times? with
    | some n => if e.used == n then verifyFrom (index + 1) rest else .error ⟨index, e.used, n⟩
    | none => verifyFrom (index + 1) rest

/-- Whether all expectations with a number of uses were met. -/
def verify (r : Rehearsal) : Except Unmet Unit := verifyFrom 0 r.expectations

/-- Those who take part in a rehearsed query. -/
def collaborators : Collaborators (StateM Rehearsal) where
  resolve := lookup
  execute := execute
  note _ _ := pure ()

end Rehearsal

end TargetQuery
