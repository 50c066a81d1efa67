import TargetQuery.Proofs.Execution.Leftovers
import TargetQuery.Proofs.Rehearsal.Answering
import TargetQuery.Proofs.Text.Utf8

/-!
# Rehearsed and real runs

A job whose command ends like the reply that a rehearsal has for it gives the same in both. The job
and its command are shown to people alike, so what is expected of the one is expected of the other.
-/

namespace TargetQuery

/-- The end of a command that is rehearsed as the reply. -/
def Reply.completed (reply : Reply) : Completed :=
  ⟨some reply.status, Utf8.encode reply.output, Utf8.encode reply.errors⟩

namespace Executor

variable {e : Executor} {j : Job} {w : World} {program : Path}

/-- A command is shown as its job is, whether the bytes are text or not. -/
theorem display_command (tool : j.tool.path? = some program) :
    (e.command program j.argv).display = j.displayCommand := by
  have shown : j.tool.display = program.display := by rw [Location.display, tool]
  have rendered : j.argv.map Utf8.lossy = j.arguments.map Argument.display := by
    rw [Job.argv, List.map_map]
    rfl
  rw [Command.display, Job.displayCommand, shown, ← rendered]
  rfl

theorem outcome_completed (c : Command) (reply : Reply) :
    outcome c reply.completed = Rehearsal.result c.display reply := by
  have succeeded : reply.completed.succeeded = true ↔ reply.status = 0 := by
    simp only [Completed.succeeded, Reply.completed, beq_iff_eq, Option.some.injEq]
  simp only [outcome, Rehearsal.result, succeeded]
  simp only [Reply.completed, Utf8.lossy_encode]

/-- A job that neither runs in place nor has its arguments in a file gives what the end of its
command means. -/
theorem run_execute_of_direct (tool : j.tool.path? = some program)
    (notInPlace : j.inPlace = false) (direct : e.spills j = false) {ended : Completed}
    (ends : (e.launch (e.command program j.argv) (announced j (e.command program j.argv) w)).1
      = .ok ended) :
    ((e.execute j).run w).1 = .ok (outcome (e.command program j.argv) ended) := by
  let p : Prepared := { command := e.command program j.argv }
  have prepared : e.prepare j w = (.ok p, w) := e.prepare_of_direct j w tool direct
  have launches : e.launched j p (announced j p.command w)
      = (conclude j p (e.launch p.command (announced j p.command w)).1).run
        (e.launch p.command (announced j p.command w)).2 := by
    have asIs : { p.command with replaces := j.inPlace } = p.command := by
      rw [notInPlace]
      rfl
    rw [launched, asIs]
    rfl
  rw [e.run_execute_of_ok j w prepared, launches, ends, run_conclude (by simp [notInPlace])]

end Executor

namespace Rehearsal

/-- If the command of a job ends like the reply to it then the job gives the same as in the
rehearsal: the output, if the status is zero, and otherwise an error with the same command, the same
status and the same text. This is for jobs that neither run in place nor have their arguments in a
file. Their commands are shown as the jobs are. -/
theorem execute_agrees {e : Executor} {j : Job} {w : World} {program : Path}
    (tool : j.tool.path? = some program) (notInPlace : j.inPlace = false)
    (direct : e.spills j = false) :
    let c := e.command program j.argv
    e.prepare j w = (.ok { command := c }, w) ∧ c.display = j.displayCommand ∧
      ∀ {r : Rehearsal} {reply : Reply}, r.Answers j.displayCommand reply →
        (e.launch c (Executor.announced j c w)).1 = .ok reply.completed →
        ((execute j).run r).1 = result j.displayCommand reply ∧
          ((e.execute j).run w).1 = .ok (result j.displayCommand reply) := by
  intro c
  have shown : c.display = j.displayCommand := Executor.display_command tool
  refine ⟨e.prepare_of_direct j w tool direct, shown, ?_⟩
  intro r reply answers ends
  constructor
  · rw [run_execute, answer_of_answers answers, outcome_some]
  · rw [Executor.run_execute_of_direct tool notInPlace direct ends, Executor.outcome_completed,
      shown]

/-- A tool and an argument that are not text, and a command that fails. The first expectation is
used up before the job is run, so the fallback answers. -/
theorem execute_agrees_broken_text :
    let reply : Reply := .failure 3 "né"
    let e : Executor := { launch := fun _ => pure (.ok reply.completed) }
    let j : Job :=
      { kind := .printTargetInfo, tool := .absolute ⟨[0x2F, 0xFF]⟩
        arguments := [.path (.relative ⟨[0xFE, 0x61]⟩), .flag "-v"] }
    let r : Rehearsal :=
      { expectations := [{ pattern := .any, reply := .success "{}", times? := some 1, used := 1 }]
        fallback? := some reply }
    ((execute j).run r).1 = .error (.failed "/\uFFFD \uFFFDa -v" (some 3) "né") ∧
      ((e.execute j).run {}).1 = .ok (.error (.failed "/\uFFFD \uFFFDa -v" (some 3) "né")) := by
  intro reply e j r
  have spent : Unexpected j.displayCommand r.expectations := by decide +kernel
  have answers : r.Answers j.displayCommand reply := .fallback spent rfl
  have shown : j.displayCommand = "/\uFFFD \uFFFDa -v" := by decide +kernel
  have direct : e.spills j = false := by decide +kernel
  have agrees := (execute_agrees (w := {}) rfl rfl direct).2.2 answers rfl
  rw [shown] at agrees
  exact agrees

end Rehearsal

end TargetQuery
