import TargetQuery.Proofs.CommandLine.Answers
import TargetQuery.Proofs.Job.RoundTrip

/-!
# What would be run

Three commands say, or do, what the frontend is run with: one prints the job, one runs it, and one
shows where the frontend is. They all see the same. The job that is printed is read back as the one
that is run, with its tool and its arguments as they are, and the frontend that is shown is its
tool; none is shown just if neither of the others has one to run.
-/

namespace TargetQuery.CommandLine

variable {o : Options} {w : World} {frontend : Path}

/-! ### Showing the frontend -/

def frontendShown (w : World) : String :=
  match lookupIn w with
  | .ok path => path.display
  | .error _ => "not found"

theorem exists_frontendLine (colours : Bool) (w w' : World) :
    ∃ notices, frontendLine colours (lookupIn w) w'
      = ("  Frontend: " ++ frontendShown w ++ "\n", { w' with notices }) := by
  rw [frontendShown]
  cases lookupIn w with
  | ok path => exact ⟨w'.notices, rfl⟩
  | error e => exact ⟨_, rfl⟩

theorem exists_showToolchain (colours : Bool) (w : World) :
    ∃ more notices, showToolchain colours w
      = (.ok ("Toolchain:\n\n" ++ ("  Frontend: " ++ frontendShown w ++ "\n") ++ more),
        { w with notices }) := by
  obtain ⟨loaded, load⟩ := exists_loadFor w
  obtain ⟨looked, find⟩ := exists_find w loaded
  obtain ⟨notices, line⟩ := exists_frontendLine colours w { w with notices := looked }
  rw [toolchainIn] at find
  simp only [showToolchain, bind, StateT.bind, get, getThe, MonadStateOf.get, StateT.get, pure,
    load, find, line, String.append_assoc]
  exact ⟨_, notices, rfl⟩

/-- The output of a command that shows the toolchain begins with this frontend. -/
def Shows (text : String) (output : Bytes) : Prop :=
  Utf8.encode ("Toolchain:\n\n" ++ ("  Frontend: " ++ text ++ "\n")) <+: output

/-- Showing the toolchain always succeeds, and runs nothing. -/
theorem exists_shows {arguments : List Bytes}
    (asked : requestOf? arguments = some .showToolchain) (w : World) :
    ∃ done notices, (∀ launch, run launch arguments w = (done, { w with notices })) ∧
      done.status? = some 0 ∧ Shows (frontendShown w) done.output := by
  obtain ⟨verbose, colours, parsed⟩ := exists_invocation_of_requestOf? asked
  obtain ⟨more, notices, shown⟩ := exists_showToolchain colours w
  obtain ⟨done, notices', ends, runs⟩ := exists_run_of_outcome parsed
    (.ok ("Toolchain:\n\n" ++ ("  Frontend: " ++ frontendShown w ++ "\n") ++ more))
    { w with notices }
  refine ⟨done, notices', fun launch => runs launch w ?_, ends.1, ?_⟩
  · change (liftM (showToolchain colours) : Course Outcome).run w = _
    rw [Course.run_lift, shown]
  · rw [Shows, ends.2, Utf8.encode_append _ more]
    exact List.prefix_append _ _

theorem exists_encode_display (absolute : frontend.isAbsolute = true) :
    ∃ more, Utf8.encode frontend.display = Ascii.slash :: more := by
  obtain ⟨bytes⟩ := frontend
  cases bytes with
  | nil => cases absolute
  | cons b s =>
    have slash : b = Ascii.slash := by simpa [Path.isAbsolute] using absolute
    subst slash
    refine ⟨Utf8.encodeChars ((Utf8.pieces s).map fun p => p.char?.getD '\uFFFD'), ?_⟩
    rw [Path.display, Utf8.lossy, Utf8.encode, String.toList_ofList, Utf8.pieces_cons]
    rfl

/-- The path of a frontend is not mistaken for the words that are shown without one. -/
theorem shows_notFound_iff {output : Bytes} (shows : Shows (frontendShown w) output) :
    Shows "not found" output ↔ ∃ e, lookupIn w = .error e := by
  cases found : lookupIn w with
  | error e =>
    rw [frontendShown, found] at shows
    exact ⟨fun _ => ⟨e, rfl⟩, fun _ => shows⟩
  | ok frontend =>
    rw [frontendShown, found] at shows
    constructor
    · -- The path begins with a slash where the words begin with a letter.
      intro none
      obtain ⟨more, display⟩ := exists_encode_display (isAbsolute_of_lookupIn found)
      obtain ⟨shown, begins⟩ := shows
      obtain ⟨words, begins'⟩ := none
      have same := begins.trans begins'.symm
      simp only [Utf8.encode_append, List.append_assoc, List.append_cancel_left_eq, display] at same
      exact absurd (List.cons.inj same).1 (by decide)
    · rintro ⟨e, missing⟩
      cases missing

/-! ### Running the frontend -/

/-- A run launches just this command. What the launch does to the machine is what the run does to
it, whatever launching may do. -/
def Launches (arguments : List Bytes) (w : World) (c : Command) : Prop :=
  ∃ notices, ∀ launch, ∃ notices', (run launch arguments w).2
    = { (launch c { w with notices }).2 with notices := notices' }

/-- If a frontend is found, a query launches it, whoever launches. -/
theorem launches_of_found {arguments : List Bytes} {format : OutputFormat}
    (asked : requestOf? arguments = some (.describe o false format))
    (found : lookupIn w = .ok frontend) : Launches arguments w (commandOf o w frontend) := by
  obtain ⟨verbose, colours, parsed⟩ := exists_invocation_of_requestOf? asked
  obtain ⟨notices, ran⟩ := exists_describe_asking o found
  refine ⟨notices, fun launch => ?_⟩
  obtain ⟨ended, after, launched⟩ : ∃ ended after,
      launch (commandOf o w frontend) { w with notices } = (ended, after) := ⟨_, _, rfl⟩
  obtain ⟨notices', described⟩ := ran launch format ended after launched
  rw [launched]
  cases concludes : answer format (commandOf o w frontend) ended with
  | error completed =>
    rw [concludes] at described
    obtain ⟨errors, done⟩ := exists_run_of_replaced parsed described
    exact ⟨notices', by rw [done]⟩
  | ok outcome =>
    rw [concludes] at described
    obtain ⟨done, said, -, runs⟩ := exists_run_of_outcome parsed outcome
      { after with notices := notices' }
    exact ⟨said, by rw [runs launch w described]⟩

/-- A run that fails because no frontend is found. -/
def FailsToFind (launch : Launcher) (arguments : List Bytes) (w : World) : Prop :=
  (run launch arguments w).1.status? = some 1 ∧
    ∃ i e w', Invocation.ofArguments arguments = .ok i ∧
      (perform launch i).run w = (.ok (.error (.query (.lookup e))), w')

theorem failsToFind_of_describe {launch : Launcher} {arguments : List Bytes} {i : Invocation}
    (parsed : Invocation.ofArguments arguments = .ok i) {e : LookupError} {w' : World}
    (described : (perform launch i).run w = (.ok (.error (.query (.lookup e))), w')) :
    FailsToFind launch arguments w := by
  obtain ⟨done, notices, ends, runs⟩ :=
    exists_run_of_outcome parsed (.error (.query (.lookup e))) w'
  refine ⟨?_, i, e, w', parsed, described⟩
  rw [runs launch w described]
  exact ends.1

/-- Without a frontend both commands fail, and one that could print its job has found one. -/
theorem failsToFind_iff {printing running : List Bytes} {format format' : OutputFormat}
    (prints : requestOf? printing = some (.describe o true format))
    (runs : requestOf? running = some (.describe o false format')) (launch : Launcher) :
    FailsToFind launch printing w ∧ FailsToFind launch running w ↔
      ∃ e, lookupIn w = .error e := by
  obtain ⟨verbose, colours, parsed⟩ := exists_invocation_of_requestOf? prints
  obtain ⟨verbose', colours', parsed'⟩ := exists_invocation_of_requestOf? runs
  obtain ⟨notices, described⟩ := exists_describe_printing o w
  constructor
  · rintro ⟨⟨-, i, e, w', parsed'', failed⟩, -⟩
    obtain rfl := Except.ok.inj (parsed.symm.trans parsed'')
    have same := (Prod.mk.inj ((described launch format).symm.trans failed)).1
    have missing : printed o w = .error (.query (.lookup e)) := Except.ok.inj same
    cases found : lookupIn w with
    | error e' => exact ⟨e', rfl⟩
    | ok frontend =>
      -- A frontend that is found fails to be printed for another reason, if at all.
      cases written : (jobOf o w frontend).toJson? <;>
        simp only [printed, found, written] at missing <;> cases missing
  · rintro ⟨e, missing⟩
    have outcome : printed o w = .error (.query (.lookup e)) := by simp only [printed, missing]
    obtain ⟨_, unresolved⟩ := exists_describe_unresolved o missing
    rw [outcome] at described
    exact ⟨failsToFind_of_describe parsed (described launch format),
      failsToFind_of_describe parsed' (unresolved launch format')⟩

/-! ### Together -/

/-- The three commands agree in every machine, and the first and the last leave it as it is. If the
job is printed, it is read back as the one that the second command runs, with its tool and its
arguments byte for byte, and its tool is the frontend that is shown. The words that are shown
without a frontend are shown just if the other two fail for want of one. -/
theorem commands_agree {printing running showing : List Bytes} {format format' : OutputFormat}
    (prints : requestOf? printing = some (.describe o true format))
    (runs : requestOf? running = some (.describe o false format'))
    (shows : requestOf? showing = some .showToolchain) (w : World) :
    ∃ printed shown notices notices',
      (∀ launch, run launch printing w = (printed, { w with notices })) ∧
      (∀ launch, run launch showing w = (shown, { w with notices := notices' })) ∧
      (printed.status? = some 0 → ∃ job frontend, Job.ofJson? printed.output = .ok job ∧
        job.tool = .absolute frontend ∧
        Launches running w
          { program := frontend, arguments := job.argv, directory? := some w.directory
            replaces := job.inPlace } ∧
        Shows frontend.display shown.output) ∧
      shown.status? = some 0 ∧
      ∀ launch, Shows "not found" shown.output ↔
        FailsToFind launch printing w ∧ FailsToFind launch running w := by
  obtain ⟨printed, -, ⟨⟨notices, alone⟩, -, whole⟩⟩ := exists_printsJob prints w
  obtain ⟨shown, notices', alone', succeeded, line⟩ := exists_shows shows w
  refine ⟨printed, shown, notices, notices', alone, alone', fun succeeded => ?_, succeeded,
    fun launch => ?_⟩
  · obtain ⟨frontend, v, found, written, output⟩ := whole succeeded
    refine ⟨jobOf o w frontend, frontend, ?_, rfl, launches_of_found runs found, ?_⟩
    · rw [output]
      exact Job.ofJson?_of_document written v.document_toPretty_line
    · rw [frontendShown, found] at line
      exact line
  · rw [shows_notFound_iff line, failsToFind_iff prints runs]

/-- The request is to print the job of a query that leaves everything open. -/
def Request.printsOpenQuery : Request → Bool
  | .describe ⟨none, none, none, none, false⟩ true .json => true
  | _ => false

theorem eq_of_printsOpenQuery {request : Request} (h : request.printsOpenQuery = true) :
    request = .describe {} true .json := by
  unfold Request.printsOpenQuery at h
  split at h
  · rfl
  · cases h

/-- The settings of a project name a frontend in the project. -/
theorem commands_agree_relative_frontend :
    let settings := Utf8.encode "[toolchain]\nfrontend = 't'\n"
    let holder := [[0x70], Utf8.encode ".mooring"]
    let w : World :=
      { files := ⟨[([[0x70]], .directory), ([[0x70], [0x74]], .file 0o755 []),
          (holder, .directory), (holder ++ [Utf8.encode "toolchain.toml"], .file 0o644 settings)]⟩
        here := [[0x70]] }
    ∃ printed shown job frontend,
      (∀ launch, (run launch (["target-info", "--print-job"].map Utf8.encode) w).1 = printed) ∧
      (∀ launch, (run launch (["toolchain", "show"].map Utf8.encode) w).1 = shown) ∧
      printed.status? = some 0 ∧ Job.ofJson? printed.output = .ok job ∧
      job.tool = .absolute frontend ∧
      Launches [Utf8.encode "target-info"] w
        { program := frontend, arguments := job.argv, directory? := some w.directory
          replaces := job.inPlace } ∧
      Shows frontend.display shown.output := by
  intro settings holder w
  have prints : requestOf? (["target-info", "--print-job"].map Utf8.encode)
      = some (.describe {} true .json) := by
    have printing : (requestOf? (["target-info", "--print-job"].map Utf8.encode)).any
        Request.printsOpenQuery := by decide +kernel
    obtain ⟨request, asked, opened⟩ := (Option.any_eq_true _ _).mp printing
    rw [asked, eq_of_printsOpenQuery opened]
  have runs : requestOf? [Utf8.encode "target-info"] = some (.describe {} false .json) := rfl
  have shows : requestOf? (["toolchain", "show"].map Utf8.encode) = some .showToolchain := rfl
  obtain ⟨printed, shown, notices, notices', alone, alone', agree, -⟩ :=
    commands_agree prints runs shows w
  have succeeded : printed.status? = some 0 := by
    have texts : (lookupIn w).toOption.any fun frontend =>
        decide (∀ p ∈ (jobOf {} w frontend).paths, p.IsText) := by decide +kernel
    obtain ⟨done, -, job⟩ := exists_printsJob prints w
    obtain ⟨_, ran⟩ := job.alone
    have same := (ran fun _ => pure (.error .notFound)).symm.trans (alone _)
    rw [← (Prod.mk.inj same).1, job.succeeds]
    cases found : lookupIn w with
    | error e =>
      rw [found] at texts
      cases texts
    | ok frontend =>
      rw [found] at texts
      exact ⟨frontend, rfl, of_decide_eq_true texts⟩
  obtain ⟨job, frontend, read⟩ := agree succeeded
  refine ⟨printed, shown, job, frontend, fun launch => ?_, fun launch => ?_, succeeded, read⟩
  · rw [alone launch]
  · rw [alone' launch]

end TargetQuery.CommandLine
