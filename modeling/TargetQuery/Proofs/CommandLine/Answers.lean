import TargetQuery.Proofs.CommandLine.Description
import TargetQuery.Proofs.CommandLine.Summary
import TargetQuery.Proofs.CommandLine.Values
import TargetQuery.Proofs.Job.Writing
import TargetQuery.Proofs.TargetInfo.Decoding

/-!
# Whole answers

Whoever asks for a description of a target gets all of it or nothing. What is asked for stands on
the command line. The command fails, without output, if the frontend is not found, cannot be run,
fails or prints something else; and if it succeeds its output is the answer of the frontend, written
anew, or told line by line. The job that would be run is printed as a whole or not at all, too, and
nothing is run for that.
-/

namespace TargetQuery.CommandLine

variable {o : Options} {w : World} {arguments : List Bytes}

/-- Success, or failure without output. -/
def AllOrNothing (done : Completed) : Prop :=
  done.status? = some 0 ∨ done.status? = some 1 ∧ done.output = []

theorem Ends.allOrNothing {outcome : Outcome} {done : Completed} (h : Ends outcome done) :
    AllOrNothing done := by
  cases outcome with
  | ok text => exact .inl h.1
  | error trouble => exact .inr h

theorem Ends.succeeds_iff {outcome : Outcome} {done : Completed} (h : Ends outcome done) :
    done.status? = some 0 ↔ ∃ text, outcome = .ok text := by
  cases outcome with
  | ok text => exact ⟨fun _ => ⟨text, rfl⟩, fun _ => h.1⟩
  | error trouble =>
    constructor
    · intro succeeded
      rw [h.1] at succeeded
      cases succeeded
    · rintro ⟨text, ended⟩
      cases ended

/-! ### What is asked -/

/-- The command line asks for a description with these options. -/
structure AskedBy (arguments : List Bytes) (o : Options) (jobOnly : Bool) (format : OutputFormat) :
    Prop where
  target : ∀ s, o.target = some ⟨s⟩ ↔ StandsWith arguments "target" (Utf8.encode s)
  targetVariant : ∀ s, o.targetVariant = some ⟨s⟩ ↔
    StandsWith arguments "target-variant" (Utf8.encode s)
  sdk : ∀ p : Path, o.sdk = some p ↔ StandsWith arguments "sdk" p.bytes
  resourceDir : ∀ p : Path, o.resourceDir = some p ↔ StandsWith arguments "resource-dir" p.bytes
  inPlace : o.inPlace = true ↔ dashed "in-place" ∈ arguments
  jobOnly : jobOnly = true ↔ dashed "print-job" ∈ arguments
  format : format = .human ↔ StandsWith arguments "format" (Utf8.encode "human")

/-- The way to the command. -/
theorem way_describe {name : String} (notFlag : name ∉ commonFlags) :
    Way name grammar ["target-info"] (.mk ("in-place" :: "print-job" :: commonFlags)
      (targetOptions ++ [("format", .choice ["json", "human"])]) [] []) :=
  .through rfl rfl notFlag rfl (.here rfl)

/-- A command line that is right asks for exactly what stands on it. -/
theorem askedBy_of_requestOf? {jobOnly : Bool} {format : OutputFormat}
    (asked : requestOf? arguments = some (.describe o jobOnly format)) :
    AskedBy arguments o jobOnly format := by
  obtain ⟨verbose, colours, parsed⟩ := exists_invocation_of_requestOf? asked
  obtain ⟨chosen, taken, requested⟩ := exists_read_of_invocation parsed
  obtain ⟨path, request⟩ : chosen.path = ["target-info"] ∧
      Invocation.requestOf ["target-info"] chosen.last = some (.describe o jobOnly format) := by
    rw [Invocation.requestOf.eq_def] at requested
    split at requested
    · next path => exact ⟨path, requested⟩
    · cases requested
    · cases requested
    · simp [Option.bind_eq_some_iff] at requested
    · cases requested
  obtain ⟨rfl, rfl, rfl⟩ := Request.describe.inj (Option.some.inj request)
  have human : chosen.last.text? "format" = some "human" ↔
      StandsWith arguments "format" (Utf8.encode "human") :=
    (way_describe (by decide)).text_iff (by decide) (by decide) (by decide) rfl (by simp) taken
      path "human"
  exact
    { target :=
        (way_describe (by decide)).triple_iff (by decide) (by decide) (by decide) rfl taken path
      targetVariant :=
        (way_describe (by decide)).triple_iff (by decide) (by decide) (by decide) rfl taken path
      sdk := (way_describe (by decide)).path_iff (by decide) (by decide) (by decide) taken path
      resourceDir :=
        (way_describe (by decide)).path_iff (by decide) (by decide) (by decide) taken path
      inPlace := (way_describe (by decide)).hasFlag_iff (by decide) (by decide) rfl taken path
      jobOnly := (way_describe (by decide)).hasFlag_iff (by decide) (by decide) rfl taken path
      format := by
        rw [← human]
        by_cases said : chosen.last.text? "format" = some "human" <;> simp [said] }

/-! ### Printing the job -/

/-- What is printed of a job is the whole job, in a line of its own. -/
theorem printed_eq_ok {text : String} : printed o w = .ok text ↔ ∃ frontend v,
    lookupIn w = .ok frontend ∧ (jobOf o w frontend).toJson? = .ok v ∧
      text = v.toPretty ++ "\n" := by
  constructor
  · intro ended
    rw [printed] at ended
    cases found : lookupIn w with
    | error e =>
      simp only [found] at ended
      cases ended
    | ok frontend =>
      cases written : (jobOf o w frontend).toJson? with
      | error e =>
        simp only [found, written] at ended
        cases ended
      | ok v =>
        simp only [found, written] at ended
        exact ⟨frontend, v, rfl, written, (Except.ok.inj ended).symm⟩
  · rintro ⟨frontend, v, found, written, rfl⟩
    simp only [printed, found, written]

theorem exists_printed_iff : (∃ text, printed o w = .ok text) ↔
    ∃ frontend, lookupIn w = .ok frontend ∧ ∀ p ∈ (jobOf o w frontend).paths, p.IsText := by
  simp only [printed_eq_ok, ← Job.exists_toJson?]
  constructor
  · rintro ⟨_, frontend, v, found, written, -⟩
    exact ⟨frontend, found, v, written⟩
  · rintro ⟨frontend, found, v, written⟩
    exact ⟨_, frontend, v, found, written, rfl⟩

/-- A run that prints the job of some options, or fails. Nothing is run for that. -/
structure PrintsJob (o : Options) (w : World) (arguments : List Bytes) (done : Completed) :
    Prop where
  alone : ∃ notices, ∀ launch, run launch arguments w = (done, { w with notices })
  succeeds : done.status? = some 0 ↔
    ∃ frontend, lookupIn w = .ok frontend ∧ ∀ p ∈ (jobOf o w frontend).paths, p.IsText
  whole : done.status? = some 0 → ∃ frontend v, lookupIn w = .ok frontend ∧
    (jobOf o w frontend).toJson? = .ok v ∧ done.output = Utf8.encode (v.toPretty ++ "\n")

/-- The job is printed as a whole, or not at all. -/
theorem exists_printsJob {format : OutputFormat}
    (asked : requestOf? arguments = some (.describe o true format)) (w : World) :
    ∃ done, AllOrNothing done ∧ PrintsJob o w arguments done := by
  obtain ⟨verbose, colours, parsed⟩ := exists_invocation_of_requestOf? asked
  obtain ⟨notices, ran⟩ := exists_describe_printing o w
  obtain ⟨done, notices', ends, runs⟩ :=
    exists_run_of_outcome parsed (printed o w) { w with notices }
  refine ⟨done, ends.allOrNothing, ⟨notices', fun launch => ?_⟩, ?_, fun succeeded => ?_⟩
  · exact runs launch w (ran launch format)
  · rw [ends.succeeds_iff, exists_printed_iff]
  · obtain ⟨text, ended⟩ := ends.succeeds_iff.mp succeeded
    obtain ⟨frontend, v, found, written, rfl⟩ := printed_eq_ok.mp ended
    rw [ended] at ends
    exact ⟨frontend, v, found, written, ends.2⟩

/-! ### Asking the frontend -/

/-- The frontend is found, can be run, succeeds, and prints something that says this. -/
def Told (launch : Launcher) (o : Options) (w : World) (notices : List Notice)
    (info : TargetInfo) : Prop :=
  ∃ frontend completed after, lookupIn w = .ok frontend ∧
    launch (commandOf o w frontend) { w with notices } = (.ok completed, after) ∧
    completed.status? = some 0 ∧ TargetInfo.decode completed.output = .ok info

theorem told_iff {launch : Launcher} {notices : List Notice} {frontend : Path}
    {ended : Except SystemFailure Completed} {after : World} (found : lookupIn w = .ok frontend)
    (launched : launch (commandOf o w frontend) { w with notices } = (ended, after))
    (info : TargetInfo) :
    Told launch o w notices info ↔ ∃ completed, ended = .ok completed ∧
      completed.status? = some 0 ∧ TargetInfo.decode completed.output = .ok info := by
  constructor
  · rintro ⟨frontend', completed, after', found', launched', succeeded, decoded⟩
    obtain rfl := Except.ok.inj (found'.symm.trans found)
    obtain ⟨rfl, -⟩ := Prod.mk.inj (launched.symm.trans launched')
    exact ⟨completed, rfl, succeeded, decoded⟩
  · rintro ⟨completed, rfl, succeeded, decoded⟩
    exact ⟨frontend, completed, after, found, launched, succeeded, decoded⟩

/-- A command that stays has a result, which tells something if the command succeeded and printed
it. -/
theorem concluded_of_stays {c : Command} (stays : c.replaces = false)
    (ended : Except SystemFailure Completed) :
    ∃ result, concluded c ended = .ok result ∧ ∀ info, reading result = .ok info ↔
      ∃ completed, ended = .ok completed ∧ completed.status? = some 0 ∧
        TargetInfo.decode completed.output = .ok info := by
  cases ended with
  | error failure =>
    refine ⟨.error (.spawn c.program failure), by rw [concluded, stays]; rfl, fun info => ?_⟩
    simp [reading]
  | ok completed =>
    refine ⟨Executor.outcome c completed, by rw [concluded, stays]; rfl, fun info => ?_⟩
    simp only [Executor.outcome, Completed.succeeded, beq_iff_eq, Except.ok.injEq, exists_eq_left']
    by_cases succeeded : completed.status? = some 0
    · rw [if_pos succeeded, reading]
      cases TargetInfo.decode completed.output <;> simp [Except.mapError, succeeded]
    · rw [if_neg succeeded, reading]
      simp [succeeded]

/-- The command ends with what the frontend tells. -/
theorem exists_describe_told (stays : o.inPlace = false) (w : World) :
    ∃ notices, ∀ launch, ∃ result : Except QueryError TargetInfo,
      (∀ info, result = .ok info ↔ Told launch o w notices info) ∧
      ∀ format, ∃ w',
        (describe launch o false format).run w = (.ok (answered format result), w') := by
  cases found : lookupIn w with
  | error e =>
    obtain ⟨notices, ran⟩ := exists_describe_unresolved o found
    refine ⟨notices, fun launch => ⟨.error (.lookup e), fun info => ?_, fun format => ?_⟩⟩
    · simp [Told, found]
    · exact ⟨_, ran launch format⟩
  | ok frontend =>
    obtain ⟨notices, ran⟩ := exists_describe_asking o found
    refine ⟨notices, fun launch => ?_⟩
    obtain ⟨ended, after, launched⟩ : ∃ ended after,
        launch (commandOf o w frontend) { w with notices } = (ended, after) := ⟨_, _, rfl⟩
    obtain ⟨result, conclusion, tells⟩ :=
      concluded_of_stays (c := commandOf o w frontend) stays ended
    refine ⟨reading result, fun info => ?_, fun format => ?_⟩
    · rw [tells, told_iff found launched]
    · obtain ⟨notices', described⟩ := ran launch format ended after launched
      rw [answer, conclusion] at described
      exact ⟨_, described⟩

theorem exists_answered_iff {format : OutputFormat} {result : Except QueryError TargetInfo} :
    (∃ text, answered format result = .ok text) ↔ ∃ info, result = .ok info := by
  cases result <;> simp [answered]

/-- A run succeeds if the frontend tells something, and then prints it in the format. -/
theorem exists_run_told {format : OutputFormat}
    (asked : requestOf? arguments = some (.describe o false format)) (stays : o.inPlace = false)
    (w : World) :
    ∃ notices, ∀ launch, ∃ done w', run launch arguments w = (done, w') ∧ AllOrNothing done ∧
      (done.status? = some 0 ↔ ∃ info, Told launch o w notices info) ∧
      ∀ info, Told launch o w notices info → done.output = Utf8.encode (format.render info) := by
  obtain ⟨verbose, colours, parsed⟩ := exists_invocation_of_requestOf? asked
  obtain ⟨notices, tells⟩ := exists_describe_told stays w
  refine ⟨notices, fun launch => ?_⟩
  obtain ⟨result, told, described⟩ := tells launch
  obtain ⟨w', performed⟩ := described format
  obtain ⟨done, notices', ends, runs⟩ := exists_run_of_outcome parsed (answered format result) w'
  refine ⟨done, _, runs launch w performed, ends.allOrNothing, ?_, fun info tells => ?_⟩
  · simp only [ends.succeeds_iff, exists_answered_iff, told]
  · rw [(told info).mpr tells] at ends
    exact ends.2

/-- A frontend that prints this is answered with the same bytes. -/
def Repeats (o : Options) (w : World) (notices : List Notice) (arguments : List Bytes)
    (output : Bytes) : Prop :=
  ∀ launch frontend completed after, lookupIn w = .ok frontend →
    launch (commandOf o w frontend) { w with notices } = (.ok completed, after) →
    completed.status? = some 0 → completed.output = output →
    ∃ done w', run launch arguments w = (done, w') ∧ done.status? = some 0 ∧ done.output = output

/-- A run that asks the frontend. It succeeds if the frontend tells something, and prints that. -/
structure AsksFrontend (launch : Launcher) (o : Options) (w : World) (notices : List Notice)
    (arguments : List Bytes) (format : OutputFormat) (done : Completed) : Prop where
  succeeds : done.status? = some 0 ↔ ∃ info, Told launch o w notices info
  json : format = .json → ∀ info, Told launch o w notices info →
    done.output = Utf8.encode (info.encode ++ "\n") ∧ TargetInfo.decode done.output = .ok info ∧
      Repeats o w notices arguments done.output
  human : format = .human → ∀ info, Told launch o w notices info →
    ∃ lines, Tells info lines ∧ done.output = Utf8.encode (unlines lines) ∧
      ∀ other, Tells other lines → other = info

/-- A run that asks the frontend prints what it tells, as JSON or line by line. -/
theorem exists_asksFrontend {format : OutputFormat}
    (asked : requestOf? arguments = some (.describe o false format)) (stays : o.inPlace = false)
    (w : World) :
    ∃ notices, ∀ launch, ∃ done w', run launch arguments w = (done, w') ∧ AllOrNothing done ∧
      AsksFrontend launch o w notices arguments format done := by
  obtain ⟨notices, runs⟩ := exists_run_told asked stays w
  refine ⟨notices, fun launch => ?_⟩
  obtain ⟨done, w', ran, whole, succeeds, prints⟩ := runs launch
  refine ⟨done, w', ran, whole, succeeds, ?_, ?_⟩
  · rintro rfl info told
    have output : done.output = Utf8.encode (info.encode ++ "\n") := prints info told
    have decoded : TargetInfo.decode done.output = .ok info := by
      rw [output]
      exact info.decode_encode_line
    refine ⟨output, decoded, fun launch' frontend completed after found launched ended same => ?_⟩
    -- The frontend now prints a line of its own answer, which is decoded like the answer itself.
    have again : Told launch' o w notices info :=
      ⟨frontend, completed, after, found, launched, ended, by rw [same, decoded]⟩
    obtain ⟨done', w'', ran', -, succeeds', prints'⟩ := runs launch'
    exact ⟨done', w'', ran', succeeds'.mpr ⟨info, again⟩, (prints' info again).trans output.symm⟩
  · rintro rfl info told
    obtain ⟨lines, tells, same⟩ := exists_tells info
    exact ⟨lines, tells, same ▸ prints info told, fun other tells' => tells'.eq tells⟩

/-! ### Both -/

/-- Whoever asks for a description, with the options that stand on the command line, gets all of it
or nothing, whatever the frontend does. The job is printed if a frontend is found and all paths are
text, and nothing is run for that. Otherwise the frontend has to be found, to run, to succeed and to
tell something, which is then printed. What is printed in JSON says the same, and is repeated byte
for byte if a frontend prints it; what is printed for people has a line for each detail, so that it
says the same, too. -/
theorem description_all_or_nothing {jobOnly : Bool} {format : OutputFormat}
    (asked : requestOf? arguments = some (.describe o jobOnly format)) (stays : o.inPlace = false)
    (w : World) :
    AskedBy arguments o jobOnly format ∧
    ∃ notices, ∀ launch, ∃ done w', run launch arguments w = (done, w') ∧ AllOrNothing done ∧
      if jobOnly then PrintsJob o w arguments done
      else AsksFrontend launch o w notices arguments format done := by
  refine ⟨askedBy_of_requestOf? asked, ?_⟩
  cases jobOnly with
  | true =>
    obtain ⟨done, whole, prints⟩ := exists_printsJob asked w
    obtain ⟨notices, alone⟩ := prints.alone
    exact ⟨notices, fun launch => ⟨done, _, alone launch, whole, prints⟩⟩
  | false => exact exists_asksFrontend asked stays w

/-- A frontend on the search path answers with a string that is not text, in a member that nobody
asks for, and the rest of its answer is written anew. Another answer is told line by line. -/
theorem description_all_or_nothing_in_both_formats :
    let w : World :=
      { files := ⟨[([[0x62]], .directory), ([[0x62], Utf8.encode "swiftc"], .file 0o755 [])]⟩
        environment := [("PATH", [0x2F, 0x62])] }
    let prints (text : Bytes) : Launcher := fun _ => pure (.ok ⟨some 0, text, []⟩)
    let plain : TargetInfo := { target := ⟨⟨""⟩, ⟨"a"⟩, ⟨"b"⟩, true⟩ }
    let full : TargetInfo :=
      { target := ⟨⟨"arm64-apple-ios14.0"⟩, ⟨"arm64-apple-ios"⟩, ⟨"arm64-apple-ios"⟩, false⟩
        variant := some ⟨⟨"wasi"⟩, ⟨"wasi"⟩, ⟨"wasm"⟩, true⟩
        paths := some { libraries := ["/l", "/m"], imports := ["/i"], resource := "/r" } }
    let said := ["Target: arm64-apple-ios14.0", "  Unversioned: arm64-apple-ios",
      "  Module:      arm64-apple-ios", "  Arch:        arm64", "  Requires rpath: no", "",
      "Target variant: wasi", "  Unversioned: wasi", "  Module:      wasm", "  Arch:        wasi",
      "  Requires rpath: yes", "", "Runtime resources: /r", "  Library path: /l",
      "  Library path: /m", "  Import path:  /i"]
    (∃ done w', run (prints TargetInfo.brokenString) [Utf8.encode "target-info"] w = (done, w') ∧
      done.status? = some 0 ∧ done.output = Utf8.encode (plain.encode ++ "\n")) ∧
    ∃ done w', run (prints (Utf8.encode (full.encode ++ "\n")))
        (["target-info", "--format=human"].map Utf8.encode) w = (done, w') ∧
      done.status? = some 0 ∧ done.output = Utf8.encode (unlines said) := by
  intro w prints plain full said
  have found : lookupIn w = .ok (Path.ofString "/b/swiftc") := rfl
  have told : ∀ {notices text info}, TargetInfo.decode text = .ok info →
      Told (prints text) {} w notices info := by
    intro notices text info decoded
    exact ⟨_, ⟨some 0, text, []⟩, _, found, rfl, rfl, decoded⟩
  constructor
  · have asked : requestOf? [Utf8.encode "target-info"] = some (.describe {} false .json) := rfl
    have decoded : TargetInfo.decode TargetInfo.brokenString = .ok plain := rfl
    obtain ⟨-, notices, runs⟩ := description_all_or_nothing asked rfl w
    obtain ⟨done, w', ran, -, asks⟩ := runs (prints TargetInfo.brokenString)
    obtain ⟨output, -⟩ := asks.json rfl plain (told decoded)
    exact ⟨done, w', ran, asks.succeeds.mpr ⟨plain, told decoded⟩, output⟩
  · have asked : requestOf? (["target-info", "--format=human"].map Utf8.encode)
        = some (.describe {} false .human) := rfl
    obtain ⟨-, notices, runs⟩ := description_all_or_nothing asked rfl w
    obtain ⟨done, w', ran, -, asks⟩ := runs (prints (Utf8.encode (full.encode ++ "\n")))
    have decoded := full.decode_encode_line
    obtain ⟨lines, tells, output, -⟩ := asks.human rfl full (told decoded)
    have front : Triple.Begins ⟨"arm64-apple-ios14.0"⟩ "arm64" :=
      ⟨by decide, .inr ⟨"apple-ios14.0", rfl⟩⟩
    have same : lines = said := by
      rw [tells.unique (.intro (.intro front) (.some (.intro ⟨by decide, .inl rfl⟩)) .some)]
      decide +kernel
    rw [same] at output
    exact ⟨done, w', ran, asks.succeeds.mpr ⟨full, told decoded⟩, output⟩

end TargetQuery.CommandLine
