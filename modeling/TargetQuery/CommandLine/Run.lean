import TargetQuery.Ask
import TargetQuery.CommandLine.Text
import TargetQuery.Lookup
import TargetQuery.Machine.Log
import TargetQuery.Settings.Store

/-!
# Commands

What the program does for each request. A command that succeeds gives all of its output; one that
fails gives none of it, and says why.
-/

namespace TargetQuery.CommandLine

/-- Why a command fails. -/
inductive Trouble where
  | query (error : QueryError)
  | settings (error : SettingsError)
  | jobNotWritten (error : Json.WriteError)
  | nothingToOverride

/-- What is said about a failure. -/
def Trouble.report (colours : Bool) : Trouble → String
  | .query e => e.diagnostic.render colours
  | .settings e => "error: " ++ e.report ++ "\n"
  | .jobNotWritten e => "error: failed to serialize job: " ++ e.message ++ "\n"
  | .nothingToOverride =>
    "error: nothing to override; pass at least one of --frontend, --sdk, --resource-dir, --target, "
      ++ "--target-variant\n"

/-- A command: its output, unless it fails. -/
abbrev Outcome := Except Trouble String

/-! ### Describing a target -/

def summaryOfTarget (label : String) (t : Target) : String :=
  label ++ ": " ++ t.triple.text ++ "\n"
    ++ "  Unversioned: " ++ t.unversionedTriple.text ++ "\n"
    ++ "  Module:      " ++ t.moduleTriple.text ++ "\n"
    ++ "  Arch:        " ++ t.triple.arch ++ "\n"
    ++ "  Requires rpath: " ++ (if t.librariesRequireRPath then "yes" else "no") ++ "\n"

def summaryOfPaths (p : RuntimePaths) : String :=
  "\nRuntime resources: " ++ p.resource ++ "\n"
    ++ String.join (p.libraries.map fun path => "  Library path: " ++ path ++ "\n")
    ++ String.join (p.imports.map fun path => "  Import path:  " ++ path ++ "\n")

def summary (i : TargetInfo) : String :=
  summaryOfTarget "Target" i.target
    ++ String.join (i.variant.toList.map fun t => "\n" ++ summaryOfTarget "Target variant" t)
    ++ String.join (i.paths.toList.map summaryOfPaths)

def OutputFormat.render (format : OutputFormat) (i : TargetInfo) : String :=
  match format with
  | .json => i.encode ++ "\n"
  | .human => summary i

/-- Those who take part in a query on the real machine. -/
def collaborators (launch : Launcher) (t : Toolchain) (w : World) : Collaborators Course where
  resolve := (t.find : Action _)
  execute j := Executor.execute { launch, workingDir? := some w.directory } j
  note level text := (log level text : Action _)

def printJob (t : Toolchain) (q : Query) : Action Outcome := do
  match q.jobFor (← t.find) with
  | .error e => pure (.error (.query (.lookup e)))
  | .ok job =>
    log .info ("Would run: " ++ job.displayCommand)
    match job.toJson? with
    | .error e => pure (.error (.jobNotWritten e))
    | .ok json => pure (.ok (json.toPretty ++ "\n"))

def describe (launch : Launcher) (o : Options) (jobOnly : Bool) (format : OutputFormat) :
    Course Outcome := do
  let w ← get
  let settings ← (Settings.loadFor w.directory : Action _)
  let t := Toolchain.ofSettings settings w
  let q := o.query settings
  if jobOnly then (printJob t q : Action _)
  else
    match ← ask (collaborators launch t w) q with
    | .ok info => pure (.ok (format.render info))
    | .error e => pure (.error (.query e))

/-! ### The toolchain -/

def describeFile (path : Path) (w : World) : String :=
  path.display ++ (if Settings.isPresent path w then "" else " (not present)")

def settingLines (s : Settings) : String :=
  let line (label : String) (value : Option String) : String :=
    match value with
    | some v => label ++ v ++ "\n"
    | none => ""
  line "  SDK:            " (s.sdk.map Path.display)
    ++ line "  Resource dir:   " (s.resourceDir.map Path.display)
    ++ line "  Target:         " (s.target.map Triple.text)
    ++ line "  Target variant: " (s.targetVariant.map Triple.text)

def frontendLine (colours : Bool) : Except LookupError Path → Action String
  | .ok path => pure ("  Frontend: " ++ path.display ++ "\n")
  | .error e => do
    let warning := Diagnostic.ofWarning e.message
    let advised := (warning.withSuggestion Advice.setFrontendVariable).withSuggestion
      Advice.installToolchain
    say (advised.render colours)
    pure "  Frontend: not found\n"

/-- The override in the environment, even an empty one. -/
def environmentLines (w : World) : String :=
  match w.environmentValue? Frontend.override with
  | some value => "\nEnvironment:\n  " ++ Frontend.override ++ "=" ++ Utf8.lossy value ++ "\n"
  | none => ""

/-- Shows which frontend and which settings are used. -/
def showToolchain (colours : Bool) : Action Outcome := do
  let w ← get
  let settings ← Settings.loadFor w.directory
  let found ← (Toolchain.ofSettings settings w).find
  let frontend ← frontendLine colours found
  pure (.ok
    ("Toolchain:\n\n" ++ frontend ++ settingLines settings
      ++ "\nConfig:\n  Global:  " ++ describeFile (Settings.userFile w) w ++ "\n"
      ++ "  Project: " ++ describeFile (Settings.projectFile w.directory) w ++ "\n"
      ++ environmentLines w))

/-- Changes the settings of the project. Nothing is changed unless the old settings could be read.
-/
def overrideToolchain (given : Settings) : Action Outcome := do
  let w ← get
  let file := Settings.projectFile w.directory
  match Settings.loadIfPresent file w with
  | .error e => pure (.error (.settings e))
  | .ok settings =>
    if !given.hasOverrides then pure (.error .nothingToOverride)
    else
      match ← (settings.merge given).save file with
      | .error e => pure (.error (.settings e))
      | .ok () =>
        say ("     Updated " ++ file.display ++ "\n")
        pure (.ok "")

/-! ### The program -/

/-- Does what is asked. -/
def perform (launch : Launcher) (i : Invocation) : Course Outcome :=
  match i.request with
  | .describe o jobOnly format => describe launch o jobOnly format
  | .showToolchain => (showToolchain i.colours : Action _)
  | .overrideToolchain given => (overrideToolchain given : Action _)
  | .completions shell => pure (.ok (completionScript shell))

/-- Carries out an invocation. The end of a program that took the place of this one is the end of
all. -/
def carryOut (launch : Launcher) (i : Invocation) : Action Completed := do
  let ended ← (perform launch i).run
  match ended with
  | .error replaced =>
    let w ← get
    pure { replaced with errors := w.errorStream i.verbose ++ replaced.errors }
  | .ok (.ok text) =>
    let w ← get
    pure ⟨some 0, Utf8.encode text, w.errorStream i.verbose⟩
  | .ok (.error trouble) =>
    say (trouble.report i.colours)
    let w ← get
    pure ⟨some 1, [], w.errorStream i.verbose⟩

/-- Runs the program on its arguments. -/
def run (launch : Launcher) (arguments : List Bytes) : Action Completed :=
  match Invocation.ofArguments arguments with
  | .ok i => carryOut launch i
  | .error .help => pure ⟨some 0, Utf8.encode usage, []⟩
  | .error .version => pure ⟨some 0, Utf8.encode version, []⟩
  | .error .usage => pure ⟨some 2, [], Utf8.encode usage⟩

end TargetQuery.CommandLine
