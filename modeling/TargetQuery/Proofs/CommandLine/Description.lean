import TargetQuery.Proofs.CommandLine.Endings
import TargetQuery.Proofs.Execution.Delivery
import TargetQuery.Proofs.Lookup.Finding
import TargetQuery.Proofs.Query.Details
import TargetQuery.Proofs.Settings.Precedence

/-!
# How a target is described

The settings are read and the frontend is looked for, and neither changes anything. If the job is
only to be printed that is all. Otherwise the frontend is launched once, with the arguments of the
job as they are, and what the command comes to depends on how the frontend ends, and on nothing
else. What has been said before the launch does not depend on who launches.
-/

namespace TargetQuery.CommandLine

variable {o : Options} {w : World} {frontend : Path}

/-! ### What is found -/

def settingsIn (w : World) : Settings := (Settings.loadFor w.directory w).1

/-- Where a command looks for the frontend. -/
def toolchainIn (w : World) : Toolchain := Toolchain.ofSettings (settingsIn w) w

def lookupIn (w : World) : Except LookupError Path := ((toolchainIn w).find w).1

def jobOf (o : Options) (w : World) (frontend : Path) : Job := (o.query (settingsIn w)).job frontend

/-- The command that the job is run as. -/
def commandOf (o : Options) (w : World) (frontend : Path) : Command where
  program := frontend
  arguments := (jobOf o w frontend).argv
  directory? := some w.directory
  replaces := o.inPlace

theorem exists_loadFor (w : World) :
    ∃ notices, Settings.loadFor w.directory w = (settingsIn w, { w with notices }) :=
  (Settings.onlyNotes_loadFor w.directory).exists_eq w

theorem exists_find (w : World) (notices : List Notice) :
    ∃ notices', (toolchainIn w).find { w with notices }
      = (lookupIn w, { w with notices := notices' }) :=
  (toolchainIn w).onlyNotes_find w notices

theorem isAbsolute_of_lookupIn (found : lookupIn w = .ok frontend) : frontend.isAbsolute = true :=
  (toolchainIn w).isAbsolute_of_find found

theorem jobFor_lookupIn (o : Options) (found : lookupIn w = .ok frontend) :
    (o.query (settingsIn w)).jobFor (lookupIn w) = .ok (jobOf o w frontend) := by
  rw [found]
  exact Query.jobFor_of_isAbsolute _ (isAbsolute_of_lookupIn found)

/-! ### Printing the job -/

/-- What printing the job comes to. -/
def printed (o : Options) (w : World) : Outcome :=
  match lookupIn w with
  | .error e => .error (.query (.lookup e))
  | .ok frontend =>
    match (jobOf o w frontend).toJson? with
    | .error e => .error (.jobNotWritten e)
    | .ok json => .ok (json.toPretty ++ "\n")

theorem exists_printJob (o : Options) (w : World) (notices : List Notice) :
    ∃ notices', printJob (toolchainIn w) (o.query (settingsIn w)) { w with notices }
      = (printed o w, { w with notices := notices' }) := by
  obtain ⟨looked, ran⟩ := exists_find w notices
  simp only [printJob, bind, StateT.bind, ran]
  cases found : lookupIn w with
  | error e => exact ⟨looked, by simp only [printed, found, Query.jobFor]; rfl⟩
  | ok frontend =>
    have job := jobFor_lookupIn o found
    rw [found] at job
    simp only [job]
    cases written : (jobOf o w frontend).toJson? with
    | error e => exact ⟨_, by simp only [printed, found, written]; rfl⟩
    | ok json => exact ⟨_, by simp only [printed, found, written]; rfl⟩

/-- Asks the frontend that was found. -/
def askFound (launch : Launcher) (o : Options) (w : World) (format : OutputFormat) :
    Course Outcome := do
  match ← ask (collaborators launch (toolchainIn w) w) (o.query (settingsIn w)) with
  | .ok info => pure (.ok (format.render info))
  | .error e => pure (.error (.query e))

/-- The settings are read first, whatever is done then. -/
theorem exists_describe_loaded (o : Options) (w : World) :
    ∃ notices, ∀ launch jobOnly format,
      (describe launch o jobOnly format).run w
        = (if jobOnly then liftM (printJob (toolchainIn w) (o.query (settingsIn w)))
            else askFound launch o w format : Course Outcome).run { w with notices } := by
  obtain ⟨notices, load⟩ := exists_loadFor w
  refine ⟨notices, fun launch jobOnly format => ?_⟩
  have seen : (get : Course World).run w = (.ok w, w) := rfl
  have loaded : (liftM (Settings.loadFor w.directory) : Course Settings).run w
      = (.ok (settingsIn w), { w with notices }) := by
    rw [Course.run_lift, load]
  rw [describe, Course.run_bind_of_ok seen, Course.run_bind_of_ok loaded]
  rfl

/-- Printing the job looks around, and that is all. -/
theorem exists_describe_printing (o : Options) (w : World) :
    ∃ notices, ∀ launch format,
      (describe launch o true format).run w = (.ok (printed o w), { w with notices }) := by
  obtain ⟨loaded, start⟩ := exists_describe_loaded o w
  obtain ⟨notices, ran⟩ := exists_printJob o w loaded
  refine ⟨notices, fun launch format => ?_⟩
  rw [start, if_pos rfl, Course.run_lift, ran]

/-! ### Asking the frontend -/

/-- What the end of a command means for its job. A program that took the place of the running one
ends all. -/
def concluded (c : Command) :
    Except SystemFailure Completed → Except Completed (Except ExecutionError Bytes)
  | .error failure =>
    .ok (.error (if c.replaces then .inPlace c.program failure else .spawn c.program failure))
  | .ok completed => if c.replaces then .error completed else .ok (Executor.outcome c completed)

/-- What the end of a job means for its query. -/
def reading : Except ExecutionError Bytes → Except QueryError TargetInfo
  | .error e => .error (.execution e)
  | .ok output => (TargetInfo.decode output).mapError .decoding

/-- What the end of a query means for its command. -/
def answered (format : OutputFormat) : Except QueryError TargetInfo → Outcome
  | .ok info => .ok (format.render info)
  | .error e => .error (.query e)

/-- What the command makes of the end of the frontend. -/
def answer (format : OutputFormat) (c : Command) (ended : Except SystemFailure Completed) :
    Except Completed Outcome :=
  (concluded c ended).map fun result => answered format (reading result)

theorem run_conclude (j : Job) (c : Command) (ended : Except SystemFailure Completed) (w : World) :
    (Executor.conclude j { command := c } ended).run w
      = (concluded { c with replaces := j.inPlace } ended, w) := by
  rw [Executor.conclude.eq_def]
  cases ended with
  | error failure =>
    rw [concluded]
    cases j.inPlace <;> rfl
  | ok completed =>
    rw [concluded]
    cases j.inPlace <;> rfl

/-- The job of a query is launched once, as it is. -/
theorem execute_jobOf (launch : Launcher) (w' : World) {ended : Except SystemFailure Completed}
    {after : World}
    (ran : launch (commandOf o w frontend)
      (Executor.announced (jobOf o w frontend) (commandOf o w frontend) w') = (ended, after)) :
    (Executor.execute { launch, workingDir? := some w.directory } (jobOf o w frontend)).run w'
      = (concluded (commandOf o w frontend) ended, after) := by
  let e : Executor := { launch, workingDir? := some w.directory }
  let p : Prepared := { command := e.command frontend (jobOf o w frontend).argv }
  have prepared : e.prepare (jobOf o w frontend) w' = (.ok p, w') :=
    e.prepare_of_direct (jobOf o w frontend) w' rfl rfl
  have launched : e.launch { p.command with replaces := (jobOf o w frontend).inPlace }
      (Executor.announced (jobOf o w frontend) p.command w') = (ended, after) := ran
  rw [e.run_execute_of_ok _ w' prepared, Executor.launched]
  simp only [bind, StateT.bind, launched]
  rw [run_conclude]
  rfl

/-- The world in which the job of a query is run: it has been said that it will be. -/
def queried (job : Job) (w : World) : World :=
  { w with notices := w.notices ++ [.log .debug ("Querying target info: " ++ job.displayCommand)] }

variable {launch : Launcher} {t : Toolchain} {q : Query} {w₁ w₂ w₃ : World}
  {found : Except LookupError Path} {job : Job}

/-- What is done with the result of a job. -/
def readOut (note : Level → String → Course Unit) (result : Except ExecutionError Bytes) :
    Course (Except QueryError TargetInfo) := do
  match result with
  | .error e => pure (.error (.execution e))
  | .ok output =>
    match TargetInfo.decode output with
    | .error e => pure (.error (.decoding e))
    | .ok info =>
      report note info
      pure (.ok info)

theorem exists_report (launch : Launcher) (t : Toolchain) (w : World) (info : TargetInfo)
    (w' : World) :
    ∃ notices, (report (collaborators launch t w).note info).run w'
      = (.ok (), { w' with notices }) := by
  cases variant : info.variant with
  | none => exact ⟨_, by rw [report, variant]; rfl⟩
  | some v => exact ⟨_, by rw [report, variant]; rfl⟩

/-- Reading an answer only notes something. -/
theorem exists_readOut (launch : Launcher) (t : Toolchain) (w : World)
    (result : Except ExecutionError Bytes) (w' : World) :
    ∃ notices, (readOut (collaborators launch t w).note result).run w'
      = (.ok (reading result), { w' with notices }) := by
  cases result with
  | error e => exact ⟨w'.notices, rfl⟩
  | ok output =>
    cases decoded : TargetInfo.decode output with
    | error e => exact ⟨w'.notices, by simp only [readOut, reading, decoded]; rfl⟩
    | ok info =>
      obtain ⟨notices, reported⟩ := exists_report launch t w info w'
      refine ⟨notices, ?_⟩
      simp only [readOut, reading, decoded]
      rw [Course.run_bind_of_ok reported]
      rfl

theorem run_resolve (launch : Launcher) (w : World) (resolved : t.find w₁ = (found, w₂)) :
    (collaborators launch t w).resolve.run w₁ = (.ok found, w₂) := by
  change (liftM t.find : Course _).run w₁ = _
  rw [Course.run_lift, resolved]

theorem ask_of_found (launch : Launcher) (w : World) (resolved : t.find w₁ = (found, w₂))
    (planned : q.jobFor found = .ok job) :
    (ask (collaborators launch t w) q).run w₁
      = (Executor.execute { launch, workingDir? := some w.directory } job
          >>= readOut (collaborators launch t w).note).run (queried job w₂) := by
  have noted : ((collaborators launch t w).note .debug
      ("Querying target info: " ++ job.displayCommand)).run w₂ = (.ok (), queried job w₂) := rfl
  rw [ask, Course.run_bind_of_ok (run_resolve launch w resolved)]
  simp only [planned]
  rw [Course.run_bind_of_ok noted]
  rfl

/-- Whoever looks without success asks nobody. -/
theorem ask_of_missing {e : LookupError} (resolved : t.find w₁ = (.error e, w₂)) :
    (ask (collaborators launch t w) q).run w₁ = (.ok (.error (.lookup e)), w₂) := by
  rw [ask, Course.run_bind_of_ok (run_resolve launch w resolved)]
  rfl

/-- The frontend that was found is launched once, and the command makes of its end what it can. -/
theorem exists_describe_asking (o : Options) (found : lookupIn w = .ok frontend) :
    ∃ notices, ∀ launch format ended after,
      launch (commandOf o w frontend) { w with notices } = (ended, after) →
      ∃ notices', (describe launch o false format).run w
        = (answer format (commandOf o w frontend) ended, { after with notices := notices' }) := by
  obtain ⟨loaded, start⟩ := exists_describe_loaded o w
  obtain ⟨looked, resolved⟩ := exists_find w loaded
  have planned := jobFor_lookupIn o found
  -- All that is said before the launch is settled here, before it is known who launches.
  let w₂ := queried (jobOf o w frontend) { w with notices := looked }
  refine ⟨(Executor.announced (jobOf o w frontend) (commandOf o w frontend) w₂).notices,
    fun launch format ended after ran => ?_⟩
  have executed := execute_jobOf launch w₂ ran
  have asks := ask_of_found launch w resolved planned
  rw [start, if_neg Bool.false_ne_true, askFound, answer]
  cases conclusion : concluded (commandOf o w frontend) ended with
  | error completed =>
    rw [conclusion] at executed
    rw [Course.run_bind_of_error executed] at asks
    rw [Course.run_bind_of_error asks]
    exact ⟨after.notices, rfl⟩
  | ok result =>
    rw [conclusion] at executed
    obtain ⟨notices, told⟩ := exists_readOut launch (toolchainIn w) w result after
    rw [Course.run_bind_of_ok executed, told] at asks
    rw [Course.run_bind_of_ok asks, Except.map]
    refine ⟨notices, ?_⟩
    cases reading result <;> rfl

/-- Without a frontend nothing is launched. -/
theorem exists_describe_unresolved (o : Options) {e : LookupError}
    (missing : lookupIn w = .error e) :
    ∃ notices, ∀ launch format,
      (describe launch o false format).run w
        = (.ok (.error (.query (.lookup e))), { w with notices }) := by
  obtain ⟨loaded, start⟩ := exists_describe_loaded o w
  obtain ⟨looked, resolved⟩ := exists_find w loaded
  rw [missing] at resolved
  refine ⟨looked, fun launch format => ?_⟩
  rw [start, if_neg Bool.false_ne_true, askFound, Course.run_bind_of_ok (ask_of_missing resolved)]
  rfl

end TargetQuery.CommandLine
