import TargetQuery.Proofs.Execution.Delivery
import TargetQuery.Proofs.Query.Details

/-!
# Queries read back from their command lines

Nothing of what a query says is lost on the way to the frontend. Whoever walks the pairs of its
command line from the left learns which details are given and what their values are, whatever bytes
the values consist of, and the command line reaches the frontend as it is.
-/

namespace TargetQuery.Query

/-- The tokens of pairs, in a row. -/
def unpair (read : List (Bytes × Bytes)) : List Bytes :=
  read.flatMap fun (label, value) => [label, value]

/-- The pairs that a query comes to: what it gives, in the order of the labels. -/
def given (q : Query) : List (Bytes × Bytes) :=
  Detail.all.filterMap fun d => (d.ofQuery q).map (d.label, ·)

theorem pairs_argv_eq_given (q : Query) (frontend : Path) :
    pairs ((q.job frontend).argv.drop opening.length) = q.given := by
  rw [pairs_argv_job, given, List.filterMap_eq_flatMap_toList]

theorem unpair_pairs_tokens (value : Detail → Option Bytes) (details : List Detail) :
    unpair (pairs (details.flatMap fun d => d.tokens (value d)))
      = details.flatMap fun d => d.tokens (value d) := by
  rw [pairs_flatMap_tokens, unpair, List.flatMap_assoc]
  refine List.flatMap_congr fun d _ => ?_
  cases value d <;> rfl

/-- Behind the opening there are pairs and nothing else. -/
theorem argv_eq_opening_append (q : Query) (frontend : Path) :
    (q.job frontend).argv = opening ++ unpair q.given := by
  have whole := unpair_pairs_tokens (fun d => d.ofQuery q) Detail.all
  have behind : (q.job frontend).argv.drop opening.length
      = Detail.all.flatMap fun d => d.tokens (d.ofQuery q) := by
    rw [argv_job, List.drop_left]
  rw [← behind, pairs_argv_eq_given] at whole
  rw [whole, behind, argv_job]

/-- Equal command lines pass on the same details, also for different frontends. -/
theorem ofQuery_eq_of_argv_eq {q other : Query} {frontend otherFrontend : Path}
    (same : (q.job frontend).argv = (other.job otherFrontend).argv) (d : Detail) :
    d.ofQuery q = d.ofQuery other := by
  rw [← passed?_argv_job q frontend, same, passed?_argv_job]

/-- The arguments of a query never go into a file. -/
theorem spills_job (e : Executor) (q : Query) (frontend : Path) :
    e.spills (q.job frontend) = false := rfl

theorem starts_job (e : Executor) (q : Query) (frontend : Path) (w : World) :
    e.Starts (q.job frontend) w { command := e.command frontend (q.job frontend).argv } w :=
  e.starts_of_direct (q.job frontend) w rfl (spills_job e q frontend)

/-- The job runs the frontend, and its command line says what the query says and no more. -/
structure Tells (q : Query) (frontend : Path) (j : Job) : Prop where
  tool : j.tool = .absolute frontend
  argv : j.argv = opening ++ unpair q.given
  /-- The pairs behind the opening, read from the left. -/
  read : pairs (j.argv.drop opening.length) = q.given
  /-- What stands for a detail is its value, and nothing does if it is not given. -/
  passed : ∀ d, passed? d j.argv = d.ofQuery q
  /-- The frontend is started with this command line, wherever that happens. -/
  started : ∀ (e : Executor) (w : World),
    e.Starts j w { command := e.command frontend j.argv } w

theorem tells_job (q : Query) (frontend : Path) : q.Tells frontend (q.job frontend) where
  tool := rfl
  argv := argv_eq_opening_append q frontend
  read := pairs_argv_eq_given q frontend
  passed := passed?_argv_job q frontend
  started e w := starts_job e q frontend w

/-- A query can be read back from the command line of its job, and no two queries that differ in a
detail have the same command line. -/
theorem read_back {frontend : Path} (absolute : frontend.isAbsolute = true) (q : Query) :
    ∃ j, q.jobFor (.ok frontend) = .ok j ∧ q.Tells frontend j ∧
      ∀ (other : Query) (found : Except LookupError Path) (k : Job),
        other.jobFor found = .ok k → k.argv = j.argv →
          ∀ d : Detail, d.ofQuery other = d.ofQuery q := by
  refine ⟨q.job frontend, q.jobFor_of_isAbsolute absolute, q.tells_job frontend, ?_⟩
  intro other found k built same d
  obtain ⟨otherFrontend, rfl⟩ : ∃ otherFrontend, k = other.job otherFrontend := by
    cases found with
    | error e => cases built
    | ok path =>
      rw [jobFor] at built
      split at built
      · exact ⟨path, (Except.ok.inj built).symm⟩
      · cases built
  exact ofQuery_eq_of_argv_eq same d

/-- Values that look like labels, like the standard input, or like no text at all. -/
def deceptive : Query where
  target := some ⟨""⟩
  targetVariant := some ⟨"-sdk"⟩
  sdk := some .standardInput
  resourceDir := some (.relative ⟨[0xff]⟩)

theorem read_back_deceptive :
    (Path.ofString "/bin/frontend").isAbsolute = true ∧
    ∃ j, deceptive.jobFor (.ok (.ofString "/bin/frontend")) = .ok j ∧
      j.argv = opening ++ [Utf8.encode "-target", [], Utf8.encode "-target-variant",
        Utf8.encode "-sdk", Utf8.encode "-sdk", Utf8.encode "-", Utf8.encode "-resource-dir",
        [0xff]] ∧
      passed? .sdk j.argv = some (Utf8.encode "-") := by
  have absolute : (Path.ofString "/bin/frontend").isAbsolute = true := by decide
  obtain ⟨j, built, tells, -⟩ := read_back absolute deceptive
  refine ⟨absolute, j, built, ?_, ?_⟩
  · rw [tells.argv]
    decide
  · rw [tells.passed]
    decide

end TargetQuery.Query
