import TargetQuery.Proofs.Rehearsal.Answering

/-!
# The books of a rehearsal

Expectations may be made, the fallback may be replaced and jobs may be run in any order. Whatever
has been done, every job is on record, no expectation has been used more often than it may be, and
each job on record has either used one expectation or was not expected.
-/

namespace TargetQuery.Rehearsal

inductive Step where
  | expect (command : String) (reply : Reply)
  | expectPart (part : String) (reply : Reply)
  | expectPattern (pattern : CommandPattern) (reply : Reply) (times? : Option Nat)
  | setFallback (reply : Reply)
  | execute (j : Job)

namespace Step

def expectation? : Step → Option Expectation
  | .expect command reply => some { pattern := .exact command, reply }
  | .expectPart part reply => some { pattern := .contains part, reply }
  | .expectPattern pattern reply times? => some { pattern, reply, times? }
  | .setFallback _ | .execute _ => none

def fallback? : Step → Option Reply
  | .setFallback reply => some reply
  | _ => none

def job? : Step → Option Job
  | .execute j => some j
  | _ => none

end Step

def apply (r : Rehearsal) : Step → Rehearsal
  | .expect command reply => r.expect { pattern := .exact command, reply }
  | .expectPart part reply => r.expect { pattern := .contains part, reply }
  | .expectPattern pattern reply times? => r.expect { pattern, reply, times? }
  | .setFallback reply => r.setFallback reply
  | .execute j => ((execute j).run r).2

def after (r : Rehearsal) (steps : List Step) : Rehearsal := steps.foldl apply r

/-- One if the step runs a job that no expectation is ready for, and zero otherwise. -/
def missed (r : Rehearsal) : Step → Nat
  | .execute j => if Unexpected j.displayCommand r.expectations then 1 else 0
  | _ => 0

/-- How many of the steps run a job that no expectation is ready for at the time. -/
def missedIn : Rehearsal → List Step → Nat
  | _, [] => 0
  | r, s :: rest => r.missed s + missedIn (r.apply s) rest

def asMade (e : Expectation) : Expectation := { e with used := 0 }

/-- How often the expectations have been used, all of them together. -/
def uses (es : List Expectation) : Nat := sumOf (es.map (·.used))

/-- What a rehearsal holds after some steps, of which some ran a job that was not expected. -/
structure Books (steps : List Step) (unexpected : Nat) (r : Rehearsal) : Prop where
  /-- The jobs that were run are on record. -/
  jobs : r.jobs = steps.filterMap Step.job?
  /-- There is one command for each of them. -/
  commands : r.commands = r.jobs.map Job.displayCommand
  /-- Expectations stand in the order in which they were made. -/
  expectations : r.expectations.map asMade = steps.filterMap Step.expectation?
  /-- The fallback is the one that was set last. -/
  fallback : r.fallback? = (steps.filterMap Step.fallback?).getLast?
  withinLimits : ∀ e ∈ r.expectations, ∀ n, e.times? = some n → e.used ≤ n
  /-- Every job has used one expectation or none. -/
  accounted : uses r.expectations + unexpected = r.commands.length

theorem uses_cons (e : Expectation) (es : List Expectation) : uses (e :: es) = e.used + uses es :=
  rfl

theorem uses_append (es fs : List Expectation) : uses (es ++ fs) = uses es + uses fs := by
  induction es with
  | nil => exact (Nat.zero_add _).symm
  | cons e es ih => rw [List.cons_append, uses_cons, uses_cons, ih, Nat.add_assoc]

section OnceMore

variable {before behind : List Expectation} {e : Expectation}

theorem map_asMade_onceMore :
    (before ++ { e with used := e.used + 1 } :: behind).map asMade
      = (before ++ e :: behind).map asMade := by
  rw [List.map_append, List.map_append, List.map_cons, List.map_cons]
  rfl

theorem uses_onceMore :
    uses (before ++ { e with used := e.used + 1 } :: behind)
      = uses (before ++ e :: behind) + 1 := by
  simp only [uses_append, uses_cons]
  omega

/-- An expectation that is ready can be used once more without harm. -/
theorem withinLimits_onceMore {command : String} (ready : e.Ready command)
    (within : ∀ x ∈ before ++ e :: behind, ∀ n, x.times? = some n → x.used ≤ n) :
    ∀ x ∈ before ++ { e with used := e.used + 1 } :: behind, ∀ n, x.times? = some n →
      x.used ≤ n := by
  rw [List.forall_mem_append, List.forall_mem_cons] at within ⊢
  obtain ⟨before, -, behind⟩ := within
  exact ⟨before, fun n limited => ready.unspent n limited, behind⟩

end OnceMore

section OneStepMore

variable {α : Type} {f : Step → Option α} {s : Step}

theorem filterMap_of_none (steps : List Step) (nothing : f s = none) :
    (steps ++ [s]).filterMap f = steps.filterMap f := by
  rw [List.filterMap_append, List.filterMap_cons_none nothing, List.filterMap_nil, List.append_nil]

theorem filterMap_of_some (steps : List Step) {a : α} (given : f s = some a) :
    (steps ++ [s]).filterMap f = steps.filterMap f ++ [a] := by
  rw [List.filterMap_append, List.filterMap_cons_some given, List.filterMap_nil]

end OneStepMore

/-- A step that makes an expectation does nothing else, and nothing has used it. -/
theorem Step.of_expectation {s : Step} {e : Expectation} (made : s.expectation? = some e) :
    e.used = 0 ∧ s.job? = none ∧ s.fallback? = none := by
  cases s with
  | setFallback reply => cases made
  | execute j => cases made
  | _ =>
    obtain rfl := Option.some.inj made
    exact ⟨rfl, rfl, rfl⟩

namespace Books

variable {steps : List Step} {unexpected : Nat} {r : Rehearsal}

/-- The books stay right when an expectation is added. -/
theorem expect (books : Books steps unexpected r) {s : Step} {e : Expectation}
    (made : s.expectation? = some e) : Books (steps ++ [s]) unexpected (r.expect e) := by
  obtain ⟨unused, noJob, noFallback⟩ := Step.of_expectation made
  have fresh : asMade e = e := by rw [asMade, ← unused]
  constructor
  · rw [filterMap_of_none steps noJob]
    exact books.jobs
  · exact books.commands
  · rw [filterMap_of_some steps made, Rehearsal.expect, List.map_append, List.map_singleton,
      books.expectations, fresh]
  · rw [filterMap_of_none steps noFallback]
    exact books.fallback
  · intro x mem n limited
    obtain mem | same := List.mem_append.mp mem
    · exact books.withinLimits x mem n limited
    · obtain rfl := List.mem_singleton.mp same
      rw [unused]
      exact Nat.zero_le n
  · rw [Rehearsal.expect, uses_append, uses_cons, unused]
    exact books.accounted

theorem setFallback (books : Books steps unexpected r) (reply : Reply) :
    Books (steps ++ [.setFallback reply]) unexpected (r.setFallback reply) := by
  have given : (Step.setFallback reply).fallback? = some reply := rfl
  constructor
  · rw [filterMap_of_none steps rfl]
    exact books.jobs
  · exact books.commands
  · rw [filterMap_of_none steps rfl]
    exact books.expectations
  · rw [filterMap_of_some steps given, List.getLast?_concat]
    rfl
  · exact books.withinLimits
  · exact books.accounted

/-- A job is recorded, whatever it leaves of the expectations. -/
theorem record (books : Books steps unexpected r) (j : Job) {left : List Expectation} {n : Nat}
    (same : left.map asMade = r.expectations.map asMade)
    (within : ∀ e ∈ left, ∀ n, e.times? = some n → e.used ≤ n)
    (accounted : uses left + n = uses r.expectations + unexpected + 1) :
    Books (steps ++ [.execute j]) n (r.record j left) := by
  have given : (Step.execute j).job? = some j := rfl
  constructor
  · rw [filterMap_of_some steps given, ← books.jobs]
    rfl
  · rw [Rehearsal.record, books.commands, List.map_append, List.map_singleton]
  · rw [filterMap_of_none steps rfl, ← books.expectations]
    exact same
  · rw [filterMap_of_none steps rfl]
    exact books.fallback
  · exact within
  · rw [Rehearsal.record, List.length_append, ← books.accounted]
    exact accounted

/-- A job uses the first expectation that is ready, or it is one more that was not expected. -/
theorem execute (books : Books steps unexpected r) (j : Job) :
    Books (steps ++ [.execute j]) (unexpected + r.missed (.execute j))
      ((Rehearsal.execute j).run r).2 := by
  have unused (none : Unexpected j.displayCommand r.expectations) :
      Books (steps ++ [.execute j]) (unexpected + r.missed (.execute j))
        (r.record j r.expectations) := by
    rw [missed, if_pos none]
    exact books.record j rfl books.withinLimits (Nat.add_assoc _ _ _).symm
  have executed := executed_execute j r
  generalize (Rehearsal.execute j).run r = ran at executed ⊢
  obtain ⟨given, left⟩ := ran
  cases executed with
  | @expected before behind e first =>
    have expected : ¬ Unexpected j.displayCommand r.expectations := by
      intro none
      rw [first.split] at none
      exact none e (List.mem_append_right _ List.mem_cons_self) first.ready
    have within := books.withinLimits
    rw [missed, if_neg expected]
    apply books.record j
    · rw [map_asMade_onceMore, first.split]
    · rw [first.split] at within
      exact withinLimits_onceMore first.ready within
    · rw [uses_onceMore, ← first.split]
      omega
  | fallback none _ => exact unused none
  | refused none _ => exact unused none

/-- One step keeps the books. -/
theorem apply (books : Books steps unexpected r) (s : Step) :
    Books (steps ++ [s]) (unexpected + r.missed s) (r.apply s) := by
  cases s with
  | expect command reply => exact books.expect rfl
  | expectPart part reply => exact books.expect rfl
  | expectPattern pattern reply times? => exact books.expect rfl
  | setFallback reply => exact books.setFallback reply
  | execute j => exact books.execute j

theorem after (books : Books steps unexpected r) (more : List Step) :
    Books (steps ++ more) (unexpected + missedIn r more) (r.after more) := by
  induction more generalizing steps unexpected r with
  | nil =>
    rw [List.append_nil]
    exact books
  | cons s more ih =>
    have later := ih (books.apply s)
    rw [List.append_assoc, Nat.add_assoc] at later
    exact later

end Books

theorem books_start (frontend? : Option Path) : Books [] 0 { frontend? } where
  jobs := rfl
  commands := rfl
  expectations := rfl
  fallback := rfl
  withinLimits := List.forall_mem_nil _
  accounted := rfl

theorem verifyFrom_eq_ok_iff {index : Nat} {es : List Expectation} :
    verifyFrom index es = .ok () ↔ ∀ e ∈ es, ∀ n, e.times? = some n → e.used = n := by
  induction es generalizing index with
  | nil => exact iff_of_true rfl (List.forall_mem_nil _)
  | cons e rest ih =>
    rw [verifyFrom, List.forall_mem_cons]
    cases limited : e.times? with
    | none => simp [ih]
    | some n =>
      by_cases met : e.used = n
      · simp [met, ih]
      · simp [met]

/-- A rehearsal keeps its books, whatever is expected of it and run in it. It is passed exactly if
every expectation with a number of uses was used that often. The next job is answered by the first
expectation that is ready, which alone is used once more, or by the fallback, or it counts as one
that could not be started. -/
theorem books_kept (frontend? : Option Path) (steps : List Step) :
    let start : Rehearsal := { frontend? }
    let r := start.after steps
    Books steps (start.missedIn steps) r ∧
      (r.verify = .ok () ↔ ∀ e ∈ r.expectations, ∀ n, e.times? = some n → e.used = n) ∧
      ∀ j, Executed r j ((execute j).run r).1 ((execute j).run r).2 := by
  intro start r
  have books := (books_start frontend?).after steps
  rw [List.nil_append, Nat.zero_add] at books
  exact ⟨books, verifyFrom_eq_ok_iff, fun j => executed_execute j r⟩

/-- An expectation for one job, and two jobs. -/
example :
    let j : Job := { kind := .printTargetInfo, tool := .absolute ⟨[0x2F, 0x74]⟩ }
    let steps := [.expectPattern (.contains "t") (.success "x") (some 1), .execute j, .execute j]
    let start : Rehearsal := {}
    uses (start.after steps).expectations = 1 ∧ start.missedIn steps = 1 ∧
      (start.after steps).commands = ["/t", "/t"] := by
  decide +kernel

end TargetQuery.Rehearsal
