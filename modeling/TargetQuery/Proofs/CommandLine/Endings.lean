import TargetQuery.CommandLine.Run
import TargetQuery.Proofs.Machine.Notes

/-!
# How runs end

A run of the program ends as its command does: with all of the output, or with none.
-/

namespace TargetQuery.CommandLine

variable {launch : Launcher} {arguments : List Bytes} {w w' : World}

/-- What a command line asks for, if it is right. -/
def requestOf? (arguments : List Bytes) : Option Request :=
  (Invocation.ofArguments arguments).toOption.map Invocation.request

theorem exists_invocation_of_requestOf? {request : Request}
    (asked : requestOf? arguments = some request) :
    ∃ verbose colours,
      Invocation.ofArguments arguments = .ok { verbose, colours, request } := by
  rw [requestOf?] at asked
  cases parsed : Invocation.ofArguments arguments with
  | error e =>
    rw [parsed] at asked
    cases asked
  | ok i =>
    rw [parsed] at asked
    obtain rfl := Option.some.inj asked
    exact ⟨i.verbose, i.colours, rfl⟩

/-- A command that succeeds prints all of its output, and one that fails prints nothing. -/
def Ends (outcome : Outcome) (done : Completed) : Prop :=
  match outcome with
  | .ok text => done.status? = some 0 ∧ done.output = Utf8.encode text
  | .error _ => done.status? = some 1 ∧ done.output = []

/-- How a run ends does not depend on who launches programs, but for the outcome of the command. -/
theorem exists_run_of_outcome {i : Invocation} (parsed : Invocation.ofArguments arguments = .ok i)
    (outcome : Outcome) (w' : World) :
    ∃ done notices, Ends outcome done ∧ ∀ launch w,
      (perform launch i).run w = (.ok outcome, w') →
        run launch arguments w = (done, { w' with notices }) := by
  cases outcome with
  | ok text =>
    refine ⟨⟨some 0, Utf8.encode text, w'.errorStream i.verbose⟩, w'.notices, ⟨rfl, rfl⟩, ?_⟩
    intro launch w performed
    simp only [run, parsed, carryOut, bind, StateT.bind, performed]
    rfl
  | error trouble =>
    let notices := w'.notices ++ [.plain (Utf8.encode (trouble.report i.colours))]
    refine ⟨⟨some 1, [], World.errorStream { w' with notices } i.verbose⟩, notices, ⟨rfl, rfl⟩, ?_⟩
    intro launch w performed
    simp only [run, parsed, carryOut, bind, StateT.bind, performed]
    rfl

/-- A program that takes the place of the running one leaves the machine as it ends. -/
theorem exists_run_of_replaced {i : Invocation} (parsed : Invocation.ofArguments arguments = .ok i)
    {ended : Completed} (performed : (perform launch i).run w = (.error ended, w')) :
    ∃ errors, run launch arguments w = ({ ended with errors := errors }, w') := by
  refine ⟨w'.errorStream i.verbose ++ ended.errors, ?_⟩
  simp only [run, parsed, carryOut, bind, StateT.bind, performed]
  rfl

end TargetQuery.CommandLine
