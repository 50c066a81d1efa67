import TargetQuery.Proofs.Machine.Notes
import TargetQuery.Proofs.Query.Details
import TargetQuery.Proofs.Settings.Merging
import TargetQuery.Settings.Store

/-!
# Which layer counts

Settings come from the file of the user, from the file of the project on top of it, and from the
options of a query on top of both. Reading the files never fails: one that is not there, cannot be
read or is not understood is a layer that gives nothing. For each detail the highest layer that
gives it decides what the frontend is told, and the other details do not matter.
-/

namespace TargetQuery.Settings

open Query (Detail)

/-! ### What files hold -/

/-- The settings that a file holds, if it is there, can be read and is understood. -/
def held? (path : Path) (w : World) : Option Settings :=
  if isPresent path w then (load path w).toOption else none

theorem held?_of_absent {path : Path} {w : World} (absent : isPresent path w = false) :
    held? path w = none := by
  rw [held?, absent]
  rfl

theorem held?_of_error {path : Path} {w : World} {e : SettingsError}
    (failed : load path w = .error e) : held? path w = none := by
  rw [held?, failed]
  exact ite_self none

theorem held?_of_ok {path : Path} {w : World} {s : Settings} (present : isPresent path w = true)
    (loaded : load path w = .ok s) : held? path w = some s := by
  rw [held?, if_pos present, loaded]
  rfl

/-! ### Reading them -/

theorem onlyNotes_loadOrDefault (path : Path) : OnlyNotes (loadOrDefault path) := by
  refine OnlyNotes.get_bind (fun w => ?_) fun _ _ => rfl
  cases loadIfPresent path w with
  | ok s => exact .pure s
  | error e => exact (OnlyNotes.log _ _).bind fun _ => .pure _

theorem onlyNotes_loadOnTop (kind : String) (path : Path) (below : Settings) :
    OnlyNotes (loadOnTop kind path below) := by
  refine OnlyNotes.get_bind (fun w => ?_) fun _ _ => rfl
  cases isPresent path w with
  | true =>
    exact (OnlyNotes.log _ _).bind fun _ => (onlyNotes_loadOrDefault path).bind fun _ => .pure _
  | false => exact .pure below

theorem onlyNotes_loadMerged (user project : Path) : OnlyNotes (loadMerged user project) :=
  (onlyNotes_loadOnTop _ user {}).bind fun s => onlyNotes_loadOnTop _ project s

theorem onlyNotes_loadFor (root : Path) : OnlyNotes (loadFor root) :=
  OnlyNotes.get_bind (fun w => onlyNotes_loadMerged (userFile w) (projectFile root)) fun _ _ => rfl

/-- What is loaded is what the file holds, or nothing if it holds no settings. -/
theorem loadOrDefault_value (path : Path) (w : World) :
    (loadOrDefault path w).1 = (held? path w).getD {} := by
  rw [loadOrDefault, Action.get_bind_apply]
  cases present : isPresent path w with
  | false =>
    rw [loadIfPresent, present, held?_of_absent present]
    rfl
  | true =>
    rw [loadIfPresent, if_pos present]
    cases loaded : load path w with
    | ok s =>
      rw [held?_of_ok present loaded]
      rfl
    | error e =>
      rw [held?_of_error loaded]
      rfl

/-- What a file does not give is left to the layer below. -/
theorem loadOnTop_value (kind : String) (path : Path) (below : Settings) (w : World) :
    (loadOnTop kind path below w).1 = below.merge ((held? path w).getD {}) := by
  rw [loadOnTop, Action.get_bind_apply]
  cases present : isPresent path w with
  | false =>
    rw [held?_of_absent present]
    rfl
  | true =>
    have read := onlyNotes_loadOrDefault path
    have merged : OnlyNotes (loadOrDefault path >>= fun s => Pure.pure (below.merge s)) :=
      read.bind fun s => .pure _
    rw [if_pos rfl, (OnlyNotes.log _ _).bind_value w merged,
      read.bind_value w (.pure (below.merge _)), loadOrDefault_value]
    rfl

theorem loadMerged_value (user project : Path) (w : World) :
    (loadMerged user project w).1
      = ((held? user w).getD {}).merge ((held? project w).getD {}) := by
  rw [loadMerged, (onlyNotes_loadOnTop _ user {}).bind_value w (onlyNotes_loadOnTop _ project _),
    loadOnTop_value, loadOnTop_value, empty_merge]

theorem ofSettings_getD (d : Detail) (s : Option Settings) :
    d.ofSettings (s.getD {}) = s.bind d.ofSettings := by
  cases s with
  | some s => rfl
  | none => cases d <;> rfl

/-- For each detail the project counts, and the user where the project gives nothing. -/
theorem ofSettings_loadMerged (d : Detail) (user project : Path) (w : World) :
    d.ofSettings (loadMerged user project w).1
      = ((held? project w).bind d.ofSettings).or ((held? user w).bind d.ofSettings) := by
  rw [loadMerged_value, Detail.ofSettings_merge, ofSettings_getD, ofSettings_getD]

/-! ### What is passed on -/

/-- What the highest layer that gives a detail gives for it. -/
def highest (o : Options) (user project : Path) (w : World) (d : Detail) : Option Bytes :=
  (d.ofOptions o).or (((held? project w).bind d.ofSettings).or ((held? user w).bind d.ofSettings))

theorem ofQuery_loadMerged (o : Options) (user project : Path) (w : World) (d : Detail) :
    d.ofQuery (o.query (loadMerged user project w).1) = highest o user project w d := by
  rw [Detail.ofQuery_query, ofSettings_loadMerged, highest]

/-- Loading never fails, and each detail is passed on as the highest layer gives it. -/
theorem passes_highest_layer (o : Options) (user project : Path) (w : World) {frontend : Path}
    (absolute : frontend.isAbsolute = true) :
    ∃ settings notices job,
      loadMerged user project w = (settings, { w with notices })
      ∧ (o.query settings).jobFor (.ok frontend) = .ok job
      ∧ job.tool = .absolute frontend
      ∧ job.argv
        = Query.opening ++ Detail.all.flatMap (fun d => d.tokens (highest o user project w d))
      ∧ ∀ d, Query.passed? d job.argv = highest o user project w d := by
  obtain ⟨notices, loaded⟩ := (onlyNotes_loadMerged user project).exists_eq w
  have given := ofQuery_loadMerged o user project w
  refine ⟨_, notices, _, loaded, Query.jobFor_of_isAbsolute _ absolute, rfl, ?_, ?_⟩
  · rw [Query.argv_job]
    simp only [given]
  · intro d
    rw [Query.passed?_argv_job, given]

/-- A file of a project that is not understood, above a file of the user, below an option. -/
theorem passes_highest_layer_unclosed_header :
    let user := Utf8.encode "[toolchain]\ntarget = 'x'\nsdk = '/a'\n"
    let project := Utf8.encode "[toolchain"
    let w : World :=
      { files := ⟨[([[0x75]], .file 0o644 user), ([[0x70]], .file 0o644 project)]⟩ }
    ∃ settings notices job,
      loadMerged ⟨[0x2F, 0x75]⟩ ⟨[0x2F, 0x70]⟩ w = (settings, { w with notices })
      ∧ (Options.query { target := some ⟨"y"⟩ } settings).jobFor (.ok ⟨[0x2F, 0x66]⟩) = .ok job
      ∧ job.tool = .absolute ⟨[0x2F, 0x66]⟩
      ∧ job.argv
        = ["-frontend", "-print-target-info", "-target", "y", "-sdk", "/a"].map Utf8.encode := by
  intro user project w
  obtain ⟨settings, notices, job, loaded, built, tool, argv, -⟩ :=
    passes_highest_layer { target := some ⟨"y"⟩ } ⟨[0x2F, 0x75]⟩ ⟨[0x2F, 0x70]⟩ w
      (show Path.isAbsolute ⟨[0x2F, 0x66]⟩ = true by decide)
  refine ⟨settings, notices, job, loaded, built, tool, argv.trans ?_⟩
  decide +kernel

end TargetQuery.Settings
