import TargetQuery.Proofs.CommandLine.Endings
import TargetQuery.Proofs.CommandLine.Values
import TargetQuery.Proofs.Settings.Merging
import TargetQuery.Proofs.Settings.Project

/-!
# Commands that override settings

A command that overrides settings gives the values that stand on its command line, each with its
option. It either merges all of them into the project's file, or fails and leaves the file as it
was. So after any number of such commands a setting has the value that was given to it last, by a
command that succeeded.
-/

namespace TargetQuery.CommandLine

open Settings (projectFile loadIfPresent load Ready)

variable {w : World} {given : Settings}

/-! ### What is given -/

/-- The settings that a command line gives, if it is one that overrides settings. -/
def overrideOf? (arguments : List Bytes) : Option Settings :=
  match Invocation.ofArguments arguments with
  | .ok { request := .overrideToolchain given, .. } => some given
  | _ => none

theorem exists_invocation {arguments : List Bytes} (asked : overrideOf? arguments = some given) :
    ∃ verbose colours, Invocation.ofArguments arguments
      = .ok { verbose, colours, request := .overrideToolchain given } := by
  rw [overrideOf?] at asked
  split at asked
  · next verbose colours _ parsed =>
    obtain rfl := Option.some.inj asked
    exact ⟨verbose, colours, parsed⟩
  · cases asked

/-- The settings are the values that stand on the command line, each with its option. -/
structure GivenBy (arguments : List Bytes) (given : Settings) : Prop where
  frontend : ∀ p : Path, given.frontend = some p ↔ StandsWith arguments "frontend" p.bytes
  sdk : ∀ p : Path, given.sdk = some p ↔ StandsWith arguments "sdk" p.bytes
  resourceDir : ∀ p : Path, given.resourceDir = some p ↔ StandsWith arguments "resource-dir" p.bytes
  target : ∀ s, given.target = some ⟨s⟩ ↔ StandsWith arguments "target" (Utf8.encode s)
  targetVariant : ∀ s, given.targetVariant = some ⟨s⟩ ↔
    StandsWith arguments "target-variant" (Utf8.encode s)

/-- The way to the command. -/
theorem way_override {name : String} (notFlag : name ∉ commonFlags) :
    Way name grammar ["toolchain", "override"]
      (.mk commonFlags (("frontend", .path) :: targetOptions) [] []) :=
  .through rfl rfl notFlag rfl (.through rfl rfl notFlag rfl (.here rfl))

/-- A command that overrides settings reads them from what was given to it. -/
theorem exists_read_of_overrideOf? {arguments : List Bytes}
    (asked : overrideOf? arguments = some given) :
    ∃ chosen, read grammar 3 {} arguments = .ok chosen ∧
      chosen.path = ["toolchain", "override"] ∧ given = Invocation.settingsOf chosen.last := by
  obtain ⟨verbose, colours, parsed⟩ := exists_invocation asked
  obtain ⟨chosen, taken, requested⟩ := exists_read_of_invocation parsed
  refine ⟨chosen, taken, ?_⟩
  rw [Invocation.requestOf.eq_def] at requested
  split at requested
  · cases requested
  · cases requested
  · next path => exact ⟨path, (Request.overrideToolchain.inj (Option.some.inj requested)).symm⟩
  · simp [Option.bind_eq_some_iff] at requested
  · cases requested

/-- A command line that is right gives exactly the values that stand on it. -/
theorem givenBy_of_overrideOf? {arguments : List Bytes}
    (asked : overrideOf? arguments = some given) : GivenBy arguments given := by
  obtain ⟨chosen, taken, path, rfl⟩ := exists_read_of_overrideOf? asked
  exact
    { frontend := (way_override (by decide)).path_iff (by decide) (by decide) (by decide) taken path
      sdk := (way_override (by decide)).path_iff (by decide) (by decide) (by decide) taken path
      resourceDir :=
        (way_override (by decide)).path_iff (by decide) (by decide) (by decide) taken path
      target :=
        (way_override (by decide)).triple_iff (by decide) (by decide) (by decide) rfl taken path
      targetVariant :=
        (way_override (by decide)).triple_iff (by decide) (by decide) (by decide) rfl taken path }

/-- The options of the command, with the values of some settings. -/
def optionsFor (s : Settings) : List (String × Bytes) :=
  (s.frontend.map fun p => ("frontend", p.bytes)).toList
    ++ (s.sdk.map fun p => ("sdk", p.bytes)).toList
    ++ (s.resourceDir.map fun p => ("resource-dir", p.bytes)).toList
    ++ (s.target.map fun t => ("target", Utf8.encode t.text)).toList
    ++ (s.targetVariant.map fun t => ("target-variant", Utf8.encode t.text)).toList

def giving (s : Settings) : List Bytes :=
  Utf8.encode "toolchain" :: Utf8.encode "override" ::
    (optionsFor s).map fun o => joined o.1 o.2

theorem settingsOf_optionsFor (s : Settings) :
    Invocation.settingsOf { values := optionsFor s } = s := by
  obtain ⟨frontend, sdk, resourceDir, target, targetVariant⟩ := s
  cases frontend <;> cases sdk <;> cases resourceDir <;> cases target <;> cases targetVariant <;>
    simp [Invocation.settingsOf, optionsFor, Given.path?, Given.text?, Given.value?,
      List.lookup_cons]

/-- The options that are written for some settings are those that the command takes. -/
theorem wellGiven_optionsFor (s : Settings) (nonempty : ∀ p ∈ s.paths, p.bytes ≠ []) :
    WellGiven (.mk commonFlags (("frontend", .path) :: targetOptions) [] [])
      { values := optionsFor s } where
  flags := List.forall_mem_nil _
  once := by
    obtain ⟨frontend, sdk, resourceDir, target, targetVariant⟩ := s
    cases frontend <;> cases sdk <;> cases resourceDir <;> cases target <;> cases targetVariant <;>
      simp [optionsFor]
  admitted o mem := by
    have path : ∀ p ∈ s.paths, ValueKind.path.admits p.bytes = true := by
      intro p mem
      simpa [ValueKind.admits] using nonempty p mem
    have text : ∀ t, ValueKind.text.admits (Utf8.encode t) = true := by
      simp [ValueKind.admits, Utf8.isValid]
    simp only [optionsFor, List.mem_append, Option.mem_toList, Option.map_eq_some_iff] at mem
    obtain (((⟨p, given, rfl⟩ | ⟨p, given, rfl⟩) | ⟨p, given, rfl⟩) | ⟨t, given, rfl⟩) |
      ⟨t, given, rfl⟩ := mem
    · exact ⟨.path, rfl, path p (by simp [Settings.paths, given])⟩
    · exact ⟨.path, rfl, path p (by simp [Settings.paths, given])⟩
    · exact ⟨.path, rfl, path p (by simp [Settings.paths, given])⟩
    · exact ⟨.text, rfl, text t.text⟩
    · exact ⟨.text, rfl, text t.text⟩

/-- All settings can be given, as long as no path is empty. -/
theorem overrideOf?_giving (s : Settings) (nonempty : ∀ p ∈ s.paths, p.bytes ≠ []) :
    overrideOf? (giving s) = some s := by
  have front : read grammar 3 {} (giving s) =
    read (.mk commonFlags (("frontend", .path) :: targetOptions) [] []) 1
      ⟨["toolchain", "override"], [{}, {}]⟩ ((optionsFor s).map fun o => joined o.1 o.2) := by
    rfl
  have last : readFrom (.mk commonFlags (("frontend", .path) :: targetOptions) [] []) false {}
      ((optionsFor s).map fun o => joined o.1 o.2) = .ok ({ values := optionsFor s }, none) :=
    readFrom_joined (by decide) (wellGiven_optionsFor s nonempty)
  have taken : read grammar 3 {} (giving s) =
      .ok ⟨["toolchain", "override"], [{}, {}, { values := optionsFor s }]⟩ := by
    rw [front, read, List.isEmpty_cons, last]
    rfl
  have request : Invocation.requestOf ["toolchain", "override"]
      (Chosen.mk ["toolchain", "override"] [{}, {}, { values := optionsFor s }]).last
        = some (.overrideToolchain s) := by
    change Invocation.requestOf _ { values := optionsFor s } = _
    rw [Invocation.requestOf, settingsOf_optionsFor]
  simp only [overrideOf?, Invocation.ofArguments, taken, bind, Except.bind, request]

/-! ### One command -/

theorem overrideToolchain_of_unreadable {e : SettingsError}
    (loaded : loadIfPresent (projectFile w.directory) w = .error e) :
    overrideToolchain given w = (.error (.settings e), w) := by
  simp only [overrideToolchain, bind, StateT.bind, get, getThe, MonadStateOf.get, StateT.get, pure,
    loaded]
  rfl

theorem overrideToolchain_of_nothing {c : Settings}
    (loaded : loadIfPresent (projectFile w.directory) w = .ok c)
    (nothing : given.hasOverrides = false) :
    overrideToolchain given w = (.error .nothingToOverride, w) := by
  simp only [overrideToolchain, bind, StateT.bind, get, getThe, MonadStateOf.get, StateT.get, pure,
    loaded, nothing]
  rfl

theorem overrideToolchain_of_unsaved {c : Settings} {e : SettingsError} {w' : World}
    (loaded : loadIfPresent (projectFile w.directory) w = .ok c)
    (something : given.hasOverrides = true)
    (unsaved : (c.merge given).save (projectFile w.directory) w = (.error e, w')) :
    overrideToolchain given w = (.error (.settings e), w') := by
  simp only [overrideToolchain, bind, StateT.bind, get, getThe, MonadStateOf.get, StateT.get, pure,
    loaded, something, Bool.not_true, Bool.false_eq_true, if_false, unsaved]
  rfl

theorem overrideToolchain_of_saved {c : Settings} {w' : World}
    (loaded : loadIfPresent (projectFile w.directory) w = .ok c)
    (something : given.hasOverrides = true)
    (saved : (c.merge given).save (projectFile w.directory) w = (.ok (), w')) :
    ∃ notices, overrideToolchain given w = (.ok "", { w' with notices }) := by
  refine ⟨w'.notices ++ [.plain (Utf8.encode
    ("     Updated " ++ (projectFile w.directory).display ++ "\n"))], ?_⟩
  simp only [overrideToolchain, bind, StateT.bind, get, getThe, MonadStateOf.get, StateT.get, pure,
    loaded, something, Bool.not_true, Bool.false_eq_true, if_false, saved]
  rfl

/-- The program ends as its command does, and the command does all that it does to the files. -/
theorem exists_run_override (launch : Launcher) {arguments : List Bytes}
    (asked : overrideOf? arguments = some given) {outcome : Outcome} {w' : World}
    (performed : overrideToolchain given w = (outcome, w')) :
    ∃ done notices, run launch arguments w = (done, { w' with notices }) ∧
      done.status? = some (if outcome.isOk then 0 else 1) := by
  obtain ⟨verbose, colours, parsed⟩ := exists_invocation asked
  have lifted : (perform launch ⟨verbose, colours, .overrideToolchain given⟩).run w
      = (.ok outcome, w') := by
    change (liftM (overrideToolchain given) : Course Outcome).run w = _
    rw [Course.run_lift, performed]
  obtain ⟨done, notices, ends, runs⟩ := exists_run_of_outcome parsed outcome w'
  refine ⟨done, notices, runs launch w lifted, ?_⟩
  cases outcome with
  | ok text => exact ends.1
  | error trouble => exact ends.1

/-- What one command that overrides settings does: it merges what it gives into the settings of the
project, or fails and leaves what stands at the path of their file. -/
structure Overrides (w : World) (given : Settings) (done : Completed) (w' : World) : Prop where
  merged : ∀ c, loadIfPresent (projectFile w.directory) w = .ok c → given ≠ {} →
    (∀ p ∈ (c.merge given).paths, p.IsText) →
      done.status? = some 0 ∧ load (projectFile w.directory) w' = .ok (c.merge given)
  refused : (∀ c, loadIfPresent (projectFile w.directory) w = .ok c → given ≠ {} →
    ¬ ∀ p ∈ (c.merge given).paths, p.IsText) →
      done.status? = some 1 ∧ w'.files.node? w.here (projectFile w.directory)
        = w.files.node? w.here (projectFile w.directory)

/-- A command of which the settings can be kept is done, and then they still can be kept. -/
theorem run_overrides (launch : Launcher) (ready : Ready w) {arguments : List Bytes}
    (asked : overrideOf? arguments = some given) :
    ∃ done w', run launch arguments w = (done, w') ∧ Overrides w given done w' ∧
      w'.here = w.here ∧ Ready w' := by
  have fails : ∀ {trouble w'}, overrideToolchain given w = (.error trouble, w') →
      w'.here = w.here → Ready w' →
      w'.files.node? w.here (projectFile w.directory)
        = w.files.node? w.here (projectFile w.directory) →
      (∀ c, loadIfPresent (projectFile w.directory) w = .ok c → given ≠ {} →
        ¬ ∀ p ∈ (c.merge given).paths, p.IsText) →
      ∃ done w', run launch arguments w = (done, w') ∧ Overrides w given done w' ∧
        w'.here = w.here ∧ Ready w' := by
    intro trouble w' performed here ready' same refused
    obtain ⟨done, notices, ran, status⟩ := exists_run_override launch asked performed
    refine ⟨done, _, ran, ⟨?_, fun _ => ⟨status, same⟩⟩, here, ready'.of_notices notices⟩
    exact fun c loaded something texts => absurd texts (refused c loaded something)
  cases loaded : loadIfPresent (projectFile w.directory) w with
  | error e =>
    exact fails (overrideToolchain_of_unreadable loaded) rfl ready rfl
      fun c loaded' => by rw [loaded] at loaded'; cases loaded'
  | ok c =>
    by_cases nothing : given = {}
    · have empty := Settings.eq_empty_iff.mp nothing
      refine fails (overrideToolchain_of_nothing loaded empty) rfl ready rfl ?_
      exact fun _ _ something => absurd nothing something
    · have something : given.hasOverrides = true := by
        rw [Settings.eq_empty_iff] at nothing
        exact eq_true_of_ne_false nothing
      by_cases texts : ∀ p ∈ (c.merge given).paths, p.IsText
      · obtain ⟨w', saved, loadable, here, ready'⟩ := ready.save_of_texts loaded texts
        obtain ⟨said, performed⟩ := overrideToolchain_of_saved loaded something saved
        obtain ⟨done, notices, ran, status⟩ := exists_run_override launch asked performed
        refine ⟨done, _, ran, ⟨fun c' loaded' _ _ => ?_, fun refused => ?_⟩, here,
          ready'.of_notices notices⟩
        · rw [loaded] at loaded'
          rw [← Except.ok.inj loaded']
          exact ⟨status, loadable⟩
        · exact absurd texts (refused c loaded nothing)
      · obtain ⟨e, w', unsaved, here, ready', same⟩ := ready.save_of_not_texts loaded texts
        refine fails (overrideToolchain_of_unsaved loaded something unsaved) here ready' same ?_
        intro c' loaded' _
        rw [loaded] at loaded'
        rw [← Except.ok.inj loaded']
        exact texts

/-- A command that gives something that can be kept succeeds, and the next one finds it. -/
theorem Overrides.succeeds {c : Settings} {done : Completed} {w' : World}
    (h : Overrides w given done w') (here : w'.here = w.here)
    (loaded : loadIfPresent (projectFile w.directory) w = .ok c) (something : given ≠ {})
    (texts : ∀ p ∈ (c.merge given).paths, p.IsText) :
    done.status? = some 0 ∧
      loadIfPresent (projectFile w'.directory) { w' with notices := [] } = .ok (c.merge given) := by
  obtain ⟨status, merged⟩ := h.merged c loaded something texts
  rw [show w'.directory = w.directory from congrArg FileTree.render here]
  exact ⟨status, Settings.loadIfPresent_of_load merged⟩

/-- A command that gives nothing fails, and the next one finds what this one has found. -/
theorem Overrides.fails {done : Completed} {w' : World} (h : Overrides w {} done w')
    (here : w'.here = w.here) :
    done.status? = some 1 ∧ loadIfPresent (projectFile w'.directory) { w' with notices := [] }
      = loadIfPresent (projectFile w.directory) w := by
  obtain ⟨status, same⟩ := h.refused fun _ _ something => absurd rfl something
  rw [show w'.directory = w.directory from congrArg FileTree.render here]
  exact ⟨status, Settings.loadIfPresent_of_node? here same⟩

theorem Overrides.merged_or_refused {done : Completed} {w' : World}
    (h : Overrides w given done w') :
    (∃ c, loadIfPresent (projectFile w.directory) w = .ok c ∧ done.status? = some 0 ∧
      load (projectFile w.directory) w' = .ok (c.merge given)) ∨
    done.status? = some 1 ∧ w'.files.node? w.here (projectFile w.directory)
      = w.files.node? w.here (projectFile w.directory) := by
  by_cases merges : ∃ c, loadIfPresent (projectFile w.directory) w = .ok c ∧
      given ≠ {} ∧ ∀ p ∈ (c.merge given).paths, p.IsText
  · obtain ⟨c, loaded, something, texts⟩ := merges
    exact .inl ⟨c, loaded, h.merged c loaded something texts⟩
  · refine .inr (h.refused fun c loaded something texts => merges ?_)
    exact ⟨c, loaded, something, texts⟩

/-! ### Many commands -/

/-- Runs the program on one command line after the other. What a run has said is gone before the
next one. -/
def runAll (launch : Launcher) : List (List Bytes) → World → List Completed × World
  | [], w => ([], w)
  | arguments :: more, w =>
    let (done, w) := run launch arguments w
    let (others, w) := runAll launch more { w with notices := [] }
    (done :: others, w)

/-- What was given by those commands that succeeded, in their order. -/
def successful (commands : List (List Bytes)) (ended : List Completed) : List Settings :=
  (commands.zip ended).filterMap fun c => if c.2.status? = some 0 then overrideOf? c.1 else none

/-- The value that was given last, or the initial one if none was given. -/
def lastGiven {α : Type} (get : Settings → Option α) (initial : Settings)
    (given : List Settings) : Option α :=
  (given.reverse.findSome? get).or (get initial)

theorem foldl_merge_eq_lastGiven {α : Type} {get : Settings → Option α}
    (merges : ∀ below above : Settings, get (below.merge above) = (get above).or (get below))
    (initial : Settings) (given : List Settings) :
    get (given.foldl Settings.merge initial) = lastGiven get initial given := by
  rw [Settings.foldl_merge merges, lastGiven, List.getLast?_filterMap]

theorem successful_cons (arguments : List Bytes) (commands : List (List Bytes)) (done : Completed)
    (ended : List Completed) : successful (arguments :: commands) (done :: ended)
      = (if done.status? = some 0 then overrideOf? arguments else none).toList
        ++ successful commands ended := by
  simp only [successful, List.zip_cons_cons, List.filterMap_cons]
  split <;> next h => simp [h]

/-- What a run of commands has done: the settings of the project, if they could be loaded, have been
merged with what the successful commands gave; otherwise every command has failed, and what stands
at the path of the settings has stayed. -/
def Merges (w : World) (commands : List (List Bytes)) (ended : List Completed) (w' : World) :
    Prop :=
  match loadIfPresent (projectFile w.directory) w with
  | .ok c => loadIfPresent (projectFile w.directory) w'
      = .ok ((successful commands ended).foldl Settings.merge c)
  | .error _ => (∀ done ∈ ended, done.status? = some 1) ∧
    w'.files.node? w.here (projectFile w.directory)
      = w.files.node? w.here (projectFile w.directory)

theorem merges_nil (w : World) : Merges w [] [] w := by
  rw [Merges]
  split
  · next loaded => exact loaded
  · exact ⟨List.forall_mem_nil _, rfl⟩

/-- One more command in front of a run either merges, or changes nothing that counts. -/
theorem merges_cons {arguments : List Bytes} {commands : List (List Bytes)} {done : Completed}
    {ended : List Completed} {w₁ w₂ : World} (asked : overrideOf? arguments = some given)
    (first : Overrides w given done w₁) (here : w₁.here = w.here)
    (rest : Merges { w₁ with notices := [] } commands ended w₂) :
    Merges w (arguments :: commands) (done :: ended) w₂ := by
  have directory : ({ w₁ with notices := [] } : World).directory = w.directory := by
    rw [World.directory, World.directory]
    exact congrArg FileTree.render here
  rw [Merges, directory] at rest
  rw [Merges, successful_cons, asked]
  obtain ⟨c, loaded, status, merged⟩ | ⟨status, same⟩ := first.merged_or_refused
  · have loaded₁ : loadIfPresent (projectFile w.directory) { w₁ with notices := [] }
        = .ok (c.merge given) := Settings.loadIfPresent_of_load merged
    rw [loaded₁] at rest
    rw [loaded, if_pos status]
    exact rest
  · have loaded₁ : loadIfPresent (projectFile w.directory) { w₁ with notices := [] }
        = loadIfPresent (projectFile w.directory) w :=
      Settings.loadIfPresent_of_node? here same
    have refused : ¬ done.status? = some 0 := by simp [status]
    rw [loaded₁] at rest
    rw [if_neg refused]
    cases loaded : loadIfPresent (projectFile w.directory) w with
    | ok c =>
      rw [loaded] at rest
      exact rest
    | error e =>
      rw [loaded] at rest
      obtain ⟨statuses, same₂⟩ := rest
      refine ⟨List.forall_mem_cons.mpr ⟨status, statuses⟩, ?_⟩
      change w₂.files.node? w₁.here _ = w₁.files.node? w₁.here _ at same₂
      rw [here] at same₂
      exact same₂.trans same

/-- Any number of commands merge what the successful ones among them gave, in their order. -/
theorem runAll_overrides (launch : Launcher) (ready : Ready w) {commands : List (List Bytes)}
    (asked : ∀ c ∈ commands, (overrideOf? c).isSome = true) :
    ∃ ended w', runAll launch commands w = (ended, w') ∧ ended.length = commands.length ∧
      w'.here = w.here ∧ Ready w' ∧ Merges w commands ended w' := by
  induction commands generalizing w with
  | nil => exact ⟨[], w, rfl, rfl, rfl, ready, merges_nil w⟩
  | cons arguments commands ih =>
    rw [List.forall_mem_cons] at asked
    obtain ⟨given, first⟩ := Option.isSome_iff_exists.mp asked.1
    obtain ⟨done, w₁, ran, overrides, here₁, ready₁⟩ := run_overrides launch ready first
    obtain ⟨ended, w₂, rest, length, here₂, ready₂, merges⟩ := ih (ready₁.of_notices []) asked.2
    have ranAll : runAll launch (arguments :: commands) w = (done :: ended, w₂) := by
      simp only [runAll, ran, rest]
    have count : (done :: ended).length = (arguments :: commands).length := by
      rw [List.length_cons, List.length_cons, length]
    exact ⟨done :: ended, w₂, ranAll, count, here₂.trans here₁, ready₂,
      merges_cons first overrides here₁ merges⟩

/-- Where settings can be kept, every command that overrides some is all or nothing: what it gives
is what stands on its command line, and settings can still be kept afterwards. All settings can be
given in this way. So after any number of commands each setting has the value that was given last by
a command that succeeded, or the initial one; and if the initial settings cannot be loaded, no
command succeeds, and what stands at their path stays. -/
theorem override_all_or_nothing (launch : Launcher) (ready : Ready w) :
    (∀ arguments given, overrideOf? arguments = some given →
      GivenBy arguments given ∧
      ∃ done w', run launch arguments w = (done, w') ∧ Overrides w given done w' ∧
        w'.here = w.here ∧ Ready w') ∧
    (∀ given : Settings, (∀ p ∈ given.paths, p.bytes ≠ []) →
      overrideOf? (giving given) = some given) ∧
    ∀ commands, (∀ c ∈ commands, (overrideOf? c).isSome = true) →
      ∃ ended w', runAll launch commands w = (ended, w') ∧ ended.length = commands.length ∧
        w'.here = w.here ∧ Ready w' ∧
        match loadIfPresent (projectFile w.directory) w with
        | .ok initial => loadIfPresent (projectFile w.directory) w' = .ok
          { frontend := lastGiven (·.frontend) initial (successful commands ended)
            sdk := lastGiven (·.sdk) initial (successful commands ended)
            resourceDir := lastGiven (·.resourceDir) initial (successful commands ended)
            target := lastGiven (·.target) initial (successful commands ended)
            targetVariant := lastGiven (·.targetVariant) initial (successful commands ended) }
        | .error _ => (∀ done ∈ ended, done.status? = some 1) ∧
          w'.files.node? w.here (projectFile w.directory)
            = w.files.node? w.here (projectFile w.directory) := by
  refine ⟨fun _ _ asked => ⟨givenBy_of_overrideOf? asked, ?_⟩, overrideOf?_giving,
    fun commands asked => ?_⟩
  · exact run_overrides launch ready asked
  obtain ⟨ended, w', ran, length, here, ready', outcome⟩ := runAll_overrides launch ready asked
  refine ⟨ended, w', ran, length, here, ready', ?_⟩
  rw [Merges] at outcome
  cases loaded : loadIfPresent (projectFile w.directory) w with
  | error e =>
    rw [loaded] at outcome
    exact outcome
  | ok initial =>
    rw [loaded] at outcome
    refine outcome.trans (congrArg Except.ok ?_)
    have orElse : ∀ {α : Type} (a b : Option α), (a <|> b) = a.or b := by
      intro α a b
      cases a <;> rfl
    rw [← foldl_merge_eq_lastGiven (fun _ _ => orElse _ _),
      ← foldl_merge_eq_lastGiven (fun _ _ => orElse _ _),
      ← foldl_merge_eq_lastGiven (fun _ _ => orElse _ _),
      ← foldl_merge_eq_lastGiven (fun _ _ => orElse _ _),
      ← foldl_merge_eq_lastGiven (fun _ _ => orElse _ _)]

/-- Settings can be kept in an empty root directory. -/
theorem ready_root : Ready {} := by
  have sound : FileTree.Sound {} := by
    intro place node found
    have root : place = [] := by
      by_contra below
      simp [FileTree.find?, below] at found
    rw [root]
    rfl
  refine ⟨sound, List.forall_mem_nil _, fun _ _ => ?_⟩
  exact ⟨_, rfl, _, ⟨⟨_, _, rfl, by decide, rfl⟩, rfl⟩, fun node found => by cases found⟩

/-- Three commands in an empty root directory. The second one gives nothing and fails, and the third
one gives another target. -/
theorem override_in_empty_root :
    let commands := [["toolchain", "override", "--sdk=/s", "--target=x"].map Utf8.encode,
      ["toolchain", "override"].map Utf8.encode,
      ["toolchain", "override", "--target=y"].map Utf8.encode]
    ∃ first second third w',
      runAll (fun _ => pure (.error .notFound)) commands {} = ([first, second, third], w') ∧
      first.status? = some 0 ∧ second.status? = some 1 ∧ third.status? = some 0 ∧
      loadIfPresent (projectFile (FileTree.render [])) w'
        = .ok { sdk := some (Path.ofString "/s"), target := some ⟨"y"⟩ } := by
  intro commands
  have given₁ : overrideOf? (["toolchain", "override", "--sdk=/s", "--target=x"].map Utf8.encode)
      = some { sdk := some (Path.ofString "/s"), target := some ⟨"x"⟩ } :=
    overrideOf?_giving { sdk := some (Path.ofString "/s"), target := some ⟨"x"⟩ } (by decide)
  have given₂ : overrideOf? (["toolchain", "override"].map Utf8.encode) = some {} := rfl
  have given₃ : overrideOf? (["toolchain", "override", "--target=y"].map Utf8.encode)
      = some { target := some ⟨"y"⟩ } := rfl
  let launch : Launcher := fun _ => pure (.error .notFound)
  have loaded : loadIfPresent (projectFile (FileTree.render [])) {} = .ok {} := rfl
  obtain ⟨step₁, -, runs⟩ := override_all_or_nothing launch ready_root
  obtain ⟨-, first, w₁, ran₁, did₁, here₁, ready₁⟩ := step₁ _ _ given₁
  obtain ⟨step₂, -, -⟩ := override_all_or_nothing launch (ready₁.of_notices [])
  obtain ⟨-, second, w₂, ran₂, did₂, here₂, ready₂⟩ := step₂ _ _ given₂
  obtain ⟨step₃, -, -⟩ := override_all_or_nothing launch (ready₂.of_notices [])
  obtain ⟨-, third, w₃, ran₃, did₃, here₃, -⟩ := step₃ _ _ given₃
  have ran : runAll launch commands {} = ([first, second, third], { w₃ with notices := [] }) := by
    simp only [commands, runAll, ran₁, ran₂, ran₃]
  obtain ⟨first₀, loaded₁⟩ := did₁.succeeds here₁ loaded (by simp) (by decide)
  obtain ⟨second₁, loaded₂⟩ := did₂.fails here₂
  obtain ⟨third₀, -⟩ := did₃.succeeds here₃ (loaded₂.trans loaded₁) (by simp) (by decide)
  refine ⟨first, second, third, _, ran, first₀, second₁, third₀, ?_⟩
  obtain ⟨ended, w', ran', -, -, -, outcome⟩ := runs commands (by decide +kernel)
  obtain ⟨rfl, rfl⟩ := Prod.mk.inj (ran.symm.trans ran')
  simp only [commands, successful_cons, first₀, second₁, third₀, given₁, given₂, given₃] at outcome
  exact outcome

end TargetQuery.CommandLine
