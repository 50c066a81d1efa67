import TargetQuery.Proofs.Machine.Directories
import TargetQuery.Proofs.Settings.Text

/-!
# Settings that are kept

What is saved is loaded again. Settings with a path that is not text are not saved, and then every
file is as it was.
-/

namespace TargetQuery.Settings

variable {path : Path} {w made : World}

/-- Making the directory of a path changes nothing but the files. -/
theorem makeParent_eq_ok (h : makeParent path w = .ok made) : ∃ files, made = { w with files } ∧
    (path.parent? = none ∧ files = w.files ∨
      ∃ parent, path.parent? = some parent ∧
        w.files.makeAllDirectories w.here parent = .ok files) := by
  rw [makeParent] at h
  cases above : path.parent? with
  | none =>
    simp only [above] at h
    obtain rfl := Except.ok.inj h
    exact ⟨w.files, rfl, .inl ⟨rfl, rfl⟩⟩
  | some parent =>
    simp only [above] at h
    cases directories : w.files.makeAllDirectories w.here parent with
    | error failure =>
      rw [directories] at h
      cases h
    | ok files =>
      rw [directories] at h
      exact ⟨files, (Except.ok.inj h).symm, .inr ⟨parent, rfl, directories⟩⟩

theorem makeParent_extends (h : makeParent path w = .ok made) :
    w.files.Extends made.files := by
  obtain ⟨files, rfl, ⟨-, rfl⟩ | ⟨parent, -, files⟩⟩ := makeParent_eq_ok h
  · exact .refl w.files
  · exact FileTree.makeAllDirectories_extends files

theorem here_of_makeParent (h : makeParent path w = .ok made) : made.here = w.here := by
  obtain ⟨files, rfl, -⟩ := makeParent_eq_ok h
  rfl

/-- A directory that has been made is not made again, as long as it stays. -/
theorem makeParent_again (h : makeParent path w = .ok made) {w' : World} (here : w'.here = w.here)
    (keeps : made.files.KeepsDirectories w'.files) : makeParent path w' = .ok w' := by
  obtain ⟨files, rfl, ⟨above, -⟩ | ⟨parent, above, directories⟩⟩ := makeParent_eq_ok h
  · simp only [makeParent, above]
  · have again := FileTree.makeAllDirectories_again directories keeps
    rw [← here] at again
    simp only [makeParent, above, again]

theorem makeParent_sound (sound : w.files.Sound) (h : makeParent path w = .ok made) :
    made.files.Sound := by
  obtain ⟨files, rfl, ⟨-, rfl⟩ | ⟨parent, -, directories⟩⟩ := makeParent_eq_ok h
  · exact sound
  · exact FileTree.makeAllDirectories_sound sound directories

/-! ### Saving -/

theorem save_of_noDirectory (s : Settings) {e : SettingsError} (h : makeParent path w = .error e) :
    save s path w = (.error e, w) := by
  simp only [save, bind, StateT.bind, get, getThe, MonadStateOf.get, StateT.get, pure, h]
  rfl

theorem save_of_pathNotUnicode {s : Settings} (h : makeParent path w = .ok made)
    (unwritten : s.toToml? = none) : save s path w = (.error .pathNotUnicode, made) := by
  simp only [save, bind, StateT.bind, get, getThe, MonadStateOf.get, StateT.get, pure, h,
    unwritten]
  rfl

theorem save_of_written {s : Settings} (h : makeParent path w = .ok made) {text : String}
    (written : s.toToml? = some text) {files : FileTree}
    (kept : made.files.write made.here path 0o644 (Utf8.encode text) = .ok files) :
    save s path w = (.ok (), { made with files }) := by
  simp only [save, bind, StateT.bind, get, getThe, MonadStateOf.get, StateT.get, pure, h,
    written, kept]
  rfl

theorem load_of_read {s : Settings} {text : String} (written : s.toToml? = some text)
    (read : w.files.read w.here path = .ok (Utf8.encode text)) : load path w = .ok s := by
  have readText : w.files.readText w.here path = .ok text := by
    simp only [FileTree.readText, read, bind, Except.bind, Utf8.decode?_encode]
  rw [load, readText]
  exact parse_toToml? written path

/-- Settings whose paths are text are loaded as they were saved, wherever a file can be kept.
Settings with another path are not saved, and no file is changed. -/
theorem load_save (s : Settings) (path : Path) (w : World) :
    ((∀ p ∈ s.paths, p.IsText) → ∀ made, makeParent path w = .ok made →
      made.files.Keeps made.here path →
        ∃ w', save s path w = (.ok (), w') ∧ load path w' = .ok s) ∧
    (¬ (∀ p ∈ s.paths, p.IsText) → ∃ e w', save s path w = (.error e, w') ∧
      (e = .pathNotUnicode ∨ makeParent path w = .error e) ∧ w.files.Extends w'.files ∧
        ∀ content, w.files.read w.here path = .ok content →
          w'.files.read w'.here path = .ok content) := by
  constructor
  · intro texts made parent keeps
    obtain ⟨text, written⟩ := Option.isSome_iff_exists.mp (toToml?_isSome_iff.mpr texts)
    obtain ⟨files, kept, read, -⟩ :=
      keeps.write 0o644 (by decide) (by decide) (Utf8.encode text)
    exact ⟨{ made with files }, save_of_written parent written kept, load_of_read written read⟩
  · intro notTexts
    have unwritten : s.toToml? = none := by
      rw [← Option.not_isSome_iff_eq_none, toToml?_isSome_iff]
      exact notTexts
    cases parent : makeParent path w with
    | error e =>
      exact ⟨e, w, save_of_noDirectory s parent, .inr rfl, .refl w.files, fun _ => id⟩
    | ok made =>
      have extends_ := makeParent_extends parent
      refine
        ⟨.pathNotUnicode, made, save_of_pathNotUnicode parent unwritten, .inl rfl, extends_, ?_⟩
      intro content read
      rw [here_of_makeParent parent]
      exact extends_.read_eq read

/-- A text with quotes of both kinds in a file below the root, and a path that is no text there. -/
theorem load_save_below_root :
    (∃ w', save { frontend := some ⟨[0x2F, 0x61]⟩, target := some ⟨"'''\r\n\"\"\"\\\""⟩ }
        ⟨[0x2F, 0x63]⟩ {} = (.ok (), w') ∧
      load ⟨[0x2F, 0x63]⟩ w'
        = .ok { frontend := some ⟨[0x2F, 0x61]⟩, target := some ⟨"'''\r\n\"\"\"\\\""⟩ }) ∧
    ∃ e w', save { sdk := some ⟨[0xFF]⟩ } ⟨[0x2F, 0x63]⟩ {} = (.error e, w') ∧
      (e = .pathNotUnicode ∨ makeParent ⟨[0x2F, 0x63]⟩ {} = .error e) ∧
      FileTree.Extends {} w'.files ∧
        ∀ content, FileTree.read {} [] ⟨[0x2F, 0x63]⟩ = .ok content →
          w'.files.read w'.here ⟨[0x2F, 0x63]⟩ = .ok content := by
  have keeps : FileTree.Keeps {} [] ⟨[0x2F, 0x63]⟩ :=
    ⟨[[0x63]], ⟨⟨[], [0x63], rfl, by decide, rfl⟩, rfl⟩, fun node found => by cases found⟩
  constructor
  · refine (load_save _ ⟨[0x2F, 0x63]⟩ {}).1 ?_ {} rfl keeps
    simp only [paths, Option.toList_some, Option.toList_none, List.append_nil,
      List.forall_mem_singleton]
    decide
  · refine (load_save { sdk := some ⟨[0xFF]⟩ } ⟨[0x2F, 0x63]⟩ {}).2 fun texts => ?_
    have sdk := texts ⟨[0xFF]⟩ (by simp [paths])
    exact absurd sdk (by decide)

end TargetQuery.Settings
