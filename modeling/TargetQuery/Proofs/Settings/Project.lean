import TargetQuery.Proofs.Machine.Standing
import TargetQuery.Proofs.Settings.RoundTrip

/-!
# The settings of a project

The file with a project's settings lies in a directory of its own below the project. Where this
directory can be made and a file can be kept in it, settings with a text are saved, and other
settings leave what stands there; both can go on for ever.
-/

namespace TargetQuery

namespace Settings

variable {w made : World}

/-! ### The file of the project -/

/-- The place of the file with the settings of a project. -/
def projectPlace (root : Place) : Place := root ++ [directoryName.bytes] ++ [fileName.bytes]

theorem isName_directoryName : Path.IsName directoryName.bytes :=
  ⟨by decide, by decide, by decide, by decide⟩

theorem isName_fileName : Path.IsName fileName.bytes :=
  ⟨by decide, by decide, by decide, by decide⟩

theorem isName_projectPlace {root : Place} (named : ∀ name ∈ root, Path.IsName name) :
    ∀ name ∈ projectPlace root, Path.IsName name := by
  rw [projectPlace, List.forall_mem_append, List.forall_mem_append, List.forall_mem_singleton,
    List.forall_mem_singleton]
  exact ⟨⟨named, isName_directoryName⟩, isName_fileName⟩

theorem projectFile_eq (named : ∀ name ∈ w.here, Path.IsName name) :
    projectFile w.directory = FileTree.render (projectPlace w.here) := by
  have inside : ∀ name ∈ w.here ++ [directoryName.bytes], Path.IsName name := by
    rw [List.forall_mem_append, List.forall_mem_singleton]
    exact ⟨named, isName_directoryName⟩
  rw [projectFile, World.directory, FileTree.render_join named isName_directoryName,
    FileTree.render_join inside isName_fileName, projectPlace]

/-- The settings of the project can be kept: the directory in which the program runs has a path, and
below it the settings directory can be made, and a file in there. Of a file from which no settings
can be loaded this is not asked, because none are written to it. -/
structure Ready (w : World) : Prop where
  sound : w.files.Sound
  named : ∀ name ∈ w.here, Path.IsName name
  keeps : ∀ c, loadIfPresent (projectFile w.directory) w = .ok c →
    ∃ made, makeParent (projectFile w.directory) w = .ok made ∧
      made.files.Keeps made.here (projectFile w.directory)

theorem Ready.of_notices (ready : Ready w) (notices : List Notice) : Ready { w with notices } := by
  refine ⟨ready.sound, ready.named, fun c loaded => ?_⟩
  obtain ⟨made, parent, keeps⟩ := ready.keeps c loaded
  obtain ⟨files, rfl, h⟩ := makeParent_eq_ok parent
  refine ⟨{ w with files, notices }, ?_, keeps⟩
  obtain ⟨above, rfl⟩ | ⟨directory, above, directories⟩ := h
  · simp only [makeParent, World.directory] at above ⊢
    simp only [above]
  · simp only [makeParent, World.directory] at above ⊢
    simp only [above, directories]

/-- Whatever has become of the rest of the world, the settings can still be kept. -/
theorem Ready.of_files {w' : World} (ready : Ready w) (here : w'.here = w.here)
    (sound : w'.files.Sound)
    (parent : makeParent (projectFile w.directory) w = .ok made)
    (directories : made.files.KeepsDirectories w'.files)
    (keeps : w'.files.Keeps w'.here (projectFile w.directory)) : Ready w' := by
  have directory : w'.directory = w.directory := by rw [World.directory, here, World.directory]
  refine ⟨sound, by rw [here]; exact ready.named, fun _ _ => ⟨w', ?_, ?_⟩⟩
  · rw [directory]
    exact makeParent_again parent here directories
  · rw [directory]
    exact keeps

/-- What can be loaded is there. -/
theorem loadIfPresent_of_load {path : Path} {s : Settings} (h : load path w = .ok s) :
    loadIfPresent path w = .ok s := by
  have present : isPresent path w = true := by
    cases read : w.files.read w.here path with
    | error failure =>
      simp only [load, FileTree.readText, read, bind, Except.bind] at h
      cases h
    | ok content => exact FileTree.exists?_of_read read
  rw [loadIfPresent, if_pos present, h]

/-- Settings depend on what stands at the path of their file. -/
theorem loadIfPresent_of_node? {path : Path} {w' : World} (here : w'.here = w.here)
    (same : w'.files.node? w.here path = w.files.node? w.here path) :
    loadIfPresent path w' = loadIfPresent path w := by
  have present : isPresent path w' = isPresent path w := by
    rw [isPresent, isPresent, FileTree.exists?_eq_isSome, FileTree.exists?_eq_isSome, here, same]
  rw [loadIfPresent, loadIfPresent, present]
  cases node : w.files.node? w.here path with
  | none =>
    have absent : isPresent path w = false := by
      rw [isPresent, FileTree.exists?_eq_isSome, node]
      rfl
    rw [absent]
    rfl
  | some node_ =>
    have read := FileTree.read_of_node? node (same.trans node)
    simp only [load, FileTree.readText, here, read]

/-- Saving what can be written. -/
theorem Ready.save_of_texts (ready : Ready w) {c s : Settings}
    (loaded : loadIfPresent (projectFile w.directory) w = .ok c) (texts : ∀ p ∈ s.paths, p.IsText) :
    ∃ w', save s (projectFile w.directory) w = (.ok (), w') ∧
      load (projectFile w.directory) w' = .ok s ∧ w'.here = w.here ∧ Ready w' := by
  obtain ⟨made, parent, keeps⟩ := ready.keeps c loaded
  obtain ⟨text, written⟩ := Option.isSome_iff_exists.mp (toToml?_isSome_iff.mpr texts)
  obtain ⟨files, kept, read, keeps', place, mode, nonempty, held, other, rfl⟩ :=
    keeps.write 0o644 (by decide) (by decide) (Utf8.encode text)
  have here := here_of_makeParent parent
  refine ⟨_, save_of_written parent written kept, load_of_read written read, here, ?_⟩
  exact ready.of_files here ((makeParent_sound ready.sound parent).put nonempty held other) parent
    (.put nonempty other) keeps'

/-- Not saving what cannot be written. -/
theorem Ready.save_of_not_texts (ready : Ready w) {c s : Settings}
    (loaded : loadIfPresent (projectFile w.directory) w = .ok c)
    (notTexts : ¬ ∀ p ∈ s.paths, p.IsText) :
    ∃ e w', save s (projectFile w.directory) w = (.error e, w') ∧ w'.here = w.here ∧ Ready w' ∧
      w'.files.node? w.here (projectFile w.directory)
        = w.files.node? w.here (projectFile w.directory) := by
  obtain ⟨made, parent, keeps⟩ := ready.keeps c loaded
  have unwritten : s.toToml? = none := by
    rw [← Option.not_isSome_iff_eq_none, toToml?_isSome_iff]
    exact notTexts
  have here := here_of_makeParent parent
  refine ⟨_, made, save_of_pathNotUnicode parent unwritten, here, ?_, ?_⟩
  · exact ready.of_files here (makeParent_sound ready.sound parent) parent (fun _ => id) keeps
  · obtain ⟨place, receives, ordinary⟩ := keeps.ordinary
    have names := isName_projectPlace ready.named
    have nonempty : projectPlace w.here ≠ [] := by simp [projectPlace]
    have resolved := receives.resolve
    rw [projectFile_eq ready.named] at resolved ⊢
    obtain rfl := FileTree.eq_of_resolve_render names nonempty resolved
    refine (makeParent_extends parent).node?_render ready.sound names nonempty fun directory => ?_
    obtain ⟨mode, content, same, -⟩ := ordinary _ directory
    cases same

end Settings

end TargetQuery
