import Mathlib.Data.List.Forall2
import TargetQuery.Ask

/-!
# The calls of a query

Every query looks for the frontend once. Only where that gives an absolute path is a job run, once,
and the result of the query is what its failure or its output means. So after any number of queries
there has been one look for each, and the jobs that were run are those of the queries for which the
frontend was found, in their order. Those who are asked may remember whatever they like.
-/

namespace TargetQuery

/-- A call that is made for a query, with the answer to it. -/
inductive Call where
  | resolve (answer : Except LookupError Path)
  | execute (job : Job) (answer : Except ExecutionError Bytes)

namespace Call

/-- The answer to a look for the frontend. -/
def resolution? : Call → Option (Except LookupError Path)
  | .resolve answer => some answer
  | .execute .. => none

def job? : Call → Option Job
  | .resolve _ => none
  | .execute job _ => some job

end Call

section Recording

variable {m : Type → Type} [Monad m]

/-- The same collaborators, with every call to them written down together with its answer. -/
def Collaborators.recorded (c : Collaborators m) : Collaborators (StateT (List Call) m) where
  resolve := do
    let answer ← c.resolve
    modify (· ++ [.resolve answer])
    pure answer
  execute job := do
    let answer ← c.execute job
    modify (· ++ [.execute job answer])
    pure answer
  note level text := c.note level text

/-- Asks one query after the other. -/
def askAll (c : Collaborators m) (queries : List Query) :
    m (List (Except QueryError TargetInfo)) :=
  queries.mapM (ask c)

end Recording

/-! ### Runs that are written down -/

variable {σ α β : Type}

/-- From one state to another an action gives a value, and the calls that are written down for it
are these. The same action without a record gives the same value, and leaves the same state. -/
def Records (recorded : StateT (List Call) (StateM σ) α) (plain : StateM σ α) (s : σ) (a : α)
    (calls : List Call) (s' : σ) : Prop :=
  (∀ log, recorded log s = ((a, log ++ calls), s')) ∧ plain s = (a, s')

theorem records_pure (s : σ) (a : α) : Records (pure a) (pure a) s a [] s := by
  constructor
  · intro log
    rw [List.append_nil]
    rfl
  · rfl

/-- What is recorded by one action, and then by the next, is recorded by both. -/
theorem Records.bind {x : StateT (List Call) (StateM σ) α} {y : StateM σ α}
    {f : α → StateT (List Call) (StateM σ) β} {g : α → StateM σ β} {s s₁ s₂ : σ} {a : α} {b : β}
    {calls more : List Call} (first : Records x y s a calls s₁)
    (second : Records (f a) (g a) s₁ b more s₂) :
    Records (x >>= f) (y >>= g) s b (calls ++ more) s₂ := by
  obtain ⟨recorded, plain⟩ := first
  obtain ⟨recorded', plain'⟩ := second
  constructor
  · intro log
    have step := recorded' (log ++ calls)
    rw [List.append_assoc] at step
    simp only [Bind.bind, StateT.bind, recorded log]
    exact step
  · simp only [Bind.bind, StateT.bind, plain]
    exact plain'

variable {c : Collaborators (StateM σ)} {s s' : σ}

theorem records_resolve {answer : Except LookupError Path} (h : c.resolve s = (answer, s')) :
    Records c.recorded.resolve c.resolve s answer [.resolve answer] s' := by
  constructor
  · intro log
    simp only [Collaborators.recorded, Bind.bind, StateT.bind, liftM, monadLift,
      MonadLift.monadLift, StateT.lift, h]
    rfl
  · exact h

theorem records_execute {job : Job} {answer : Except ExecutionError Bytes}
    (h : c.execute job s = (answer, s')) :
    Records (c.recorded.execute job) (c.execute job) s answer [.execute job answer] s' := by
  constructor
  · intro log
    simp only [Collaborators.recorded, Bind.bind, StateT.bind, liftM, monadLift,
      MonadLift.monadLift, StateT.lift, h]
    rfl
  · exact h

/-- Notices are not calls. -/
theorem records_note (level : Level) (text : String) (s : σ) :
    Records (c.recorded.note level text) (c.note level text) s () [] (c.note level text s).2 := by
  constructor
  · intro log
    rw [List.append_nil]
    rfl
  · rfl

theorem exists_records_report (info : TargetInfo) (s : σ) :
    ∃ s', Records (report c.recorded.note info) (report c.note info) s () [] s' := by
  have target := records_note (c := c) .info ("Target: " ++ info.target.triple.text) s
  cases variant : info.variant with
  | none =>
    simp only [report, variant]
    exact ⟨_, target.bind (records_pure _ ())⟩
  | some v =>
    simp only [report, variant]
    exact ⟨_, target.bind (records_note _ _ _)⟩

/-! ### One query -/

/-- What became of one query: the calls that were made for it, and its result. -/
structure Turn where
  calls : List Call
  result : Except QueryError TargetInfo

/-- What may become of a query. The frontend is looked for first. Unless that gives an absolute path
nothing else is done; otherwise just the job of the query for that path is run. -/
inductive Turn.Of (q : Query) : Turn → Prop
  | unresolved (e : LookupError) : Of q ⟨[.resolve (.error e)], .error (.lookup e)⟩
  | notAbsolute {p : Path} (relative : p.isAbsolute = false) :
      Of q ⟨[.resolve (.ok p)], .error (.lookup (.notAbsolute p))⟩
  | failed {p : Path} (absolute : p.isAbsolute = true) (e : ExecutionError) :
      Of q ⟨[.resolve (.ok p), .execute (q.job p) (.error e)], .error (.execution e)⟩
  | ended {p : Path} (absolute : p.isAbsolute = true) (output : Bytes) :
      Of q ⟨[.resolve (.ok p), .execute (q.job p) (.ok output)],
        (TargetInfo.decode output).mapError .decoding⟩

/-- One query is one turn: one look, and a job only if it led to a path. -/
theorem exists_turn (c : Collaborators (StateM σ)) (q : Query) (s : σ) :
    ∃ turn s', Turn.Of q turn ∧
      Records (ask c.recorded q) (ask c q) s turn.result turn.calls s' := by
  obtain ⟨answer, s₁, resolved⟩ : ∃ answer s₁, c.resolve s = (answer, s₁) := ⟨_, _, rfl⟩
  have look := records_resolve resolved
  cases answer with
  | error e => exact ⟨_, s₁, .unresolved e, look.bind (records_pure s₁ _)⟩
  | ok p =>
    -- A path that is not absolute is an answer to the look, but there is no job for it.
    by_cases absolute : p.isAbsolute = true
    · have planned : q.jobFor (.ok p) = .ok (q.job p) := by rw [Query.jobFor, if_pos absolute]
      have said := records_note (c := c) .debug
        ("Querying target info: " ++ (q.job p).displayCommand) s₁
      generalize (c.note .debug _ s₁).2 = s₂ at said
      obtain ⟨outcome, s₃, ran⟩ : ∃ outcome s₃, c.execute (q.job p) s₂ = (outcome, s₃) :=
        ⟨_, _, rfl⟩
      have run := records_execute ran
      cases outcome with
      | error e =>
        refine ⟨_, s₃, .failed absolute e, look.bind ?_⟩
        simp only [planned]
        exact said.bind (run.bind (records_pure s₃ _))
      | ok output =>
        have turn := Turn.Of.ended (q := q) absolute output
        cases decoded : TargetInfo.decode output with
        | error e =>
          rw [decoded] at turn
          refine ⟨_, s₃, turn, look.bind ?_⟩
          simp only [planned]
          refine said.bind (run.bind ?_)
          simp only [decoded]
          exact records_pure s₃ _
        | ok info =>
          rw [decoded] at turn
          obtain ⟨s₄, reported⟩ := exists_records_report (c := c) info s₃
          refine ⟨_, s₄, turn, look.bind ?_⟩
          simp only [planned]
          refine said.bind (run.bind ?_)
          simp only [decoded]
          exact reported.bind (records_pure s₄ _)
    · have relative : p.isAbsolute = false := by simpa using absolute
      have planned : q.jobFor (.ok p) = .error (.notAbsolute p) := by
        rw [Query.jobFor, if_neg absolute]
      refine ⟨_, s₁, .notAbsolute relative, look.bind ?_⟩
      simp only [planned]
      exact records_pure s₁ _

/-- One look for each query, and its job if the look was successful. -/
theorem Turn.Of.calls_eq {q : Query} {turn : Turn} (h : Turn.Of q turn) :
    ∃ answer, turn.calls.filterMap Call.resolution? = [answer] ∧
      turn.calls.filterMap Call.job? = (q.jobFor answer).toOption.toList := by
  cases h with
  | unresolved e => exact ⟨.error e, rfl, rfl⟩
  | @notAbsolute p relative =>
    refine ⟨.ok p, rfl, ?_⟩
    rw [Query.jobFor, relative]
    rfl
  | @failed p absolute e | @ended p absolute output =>
    refine ⟨.ok p, rfl, ?_⟩
    rw [Query.jobFor, absolute]
    rfl

/-! ### Many queries -/

/-- The answers to all looks for the frontend. -/
def resolutions (calls : List Call) : List (Except LookupError Path) :=
  calls.filterMap Call.resolution?

def jobsRun (calls : List Call) : List Job := calls.filterMap Call.job?

/-- Any number of queries take their turns, one after the other. -/
theorem exists_turns (c : Collaborators (StateM σ)) (queries : List Query) (s : σ) :
    ∃ turns s', List.Forall₂ Turn.Of queries turns ∧
      Records (askAll c.recorded queries) (askAll c queries) s (turns.map Turn.result)
        (turns.flatMap Turn.calls) s' := by
  induction queries generalizing s with
  | nil => exact ⟨[], s, .nil, records_pure s []⟩
  | cons q queries ih =>
    obtain ⟨turn, s₁, of, asked⟩ := exists_turn c q s
    obtain ⟨turns, s₂, rest, askedRest⟩ := ih s₁
    refine ⟨turn :: turns, s₂, .cons of rest, ?_⟩
    have all := asked.bind (f := fun r => askAll c.recorded queries >>= fun rs => pure (r :: rs))
      (g := fun r => askAll c queries >>= fun rs => pure (r :: rs))
      (askedRest.bind (records_pure s₂ _))
    rw [List.append_nil] at all
    simp only [askAll, List.mapM_cons]
    exact all

/-- There is one look for each query, and the jobs are those of the queries for which it was
successful. -/
theorem calls_of_turns {queries : List Query} {turns : List Turn}
    (h : List.Forall₂ Turn.Of queries turns) :
    (resolutions (turns.flatMap Turn.calls)).length = queries.length ∧
      jobsRun (turns.flatMap Turn.calls)
        = (queries.zip (resolutions (turns.flatMap Turn.calls))).filterMap
          fun t => (t.1.jobFor t.2).toOption := by
  induction h with
  | nil => exact ⟨rfl, rfl⟩
  | @cons q turn queries turns of _ ih =>
    obtain ⟨length, jobs⟩ := ih
    obtain ⟨answer, look, job⟩ := of.calls_eq
    have looks : resolutions ((turn :: turns).flatMap Turn.calls)
        = answer :: resolutions (turns.flatMap Turn.calls) := by
      rw [resolutions, List.flatMap_cons, List.filterMap_append, look]
      rfl
    have runs : jobsRun ((turn :: turns).flatMap Turn.calls)
        = (q.jobFor answer).toOption.toList ++ jobsRun (turns.flatMap Turn.calls) := by
      rw [jobsRun, List.flatMap_cons, List.filterMap_append, job]
      rfl
    constructor
    · rw [looks, List.length_cons, length, List.length_cons]
    · rw [runs, jobs, looks, List.zip_cons_cons, List.filterMap_cons]
      cases (q.jobFor answer).toOption <;> rfl

/-- Queries that are asked one after the other take their turns in this order. Each of them looks
for the frontend once, and runs its own job once if an absolute path was found; the results say how
that ended. So there are as many looks as queries, and the jobs that were run are those of the
queries for which the look was successful. Writing all this down changes nothing. -/
theorem askAll_takes_turns (c : Collaborators (StateM σ)) (queries : List Query) (s : σ) :
    ∃ turns s', List.Forall₂ Turn.Of queries turns ∧
      (askAll c queries).run s = (turns.map Turn.result, s') ∧
      ((askAll c.recorded queries).run []).run s
        = ((turns.map Turn.result, turns.flatMap Turn.calls), s') ∧
      (resolutions (turns.flatMap Turn.calls)).length = queries.length ∧
      jobsRun (turns.flatMap Turn.calls)
        = (queries.zip (resolutions (turns.flatMap Turn.calls))).filterMap
          fun t => (t.1.jobFor t.2).toOption := by
  obtain ⟨turns, s', all, recorded, plain⟩ := exists_turns c queries s
  obtain ⟨length, jobs⟩ := calls_of_turns all
  exact ⟨turns, s', all, plain, recorded [], length, jobs⟩

end TargetQuery
