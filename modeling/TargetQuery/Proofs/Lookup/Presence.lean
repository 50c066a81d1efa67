import TargetQuery.Proofs.Lookup.Finding
import TargetQuery.Proofs.Machine.Reach

/-!
# What is found is there

Whatever the search can see of a machine, with links or without, a path that is found begins at the
root and leads to a file, as long as every relative path of a file has a path from the root that
leads to the file as well. The worlds modelled here are of this kind.
-/

namespace TargetQuery

namespace Lookup.View

variable {v : View}

/-- The path from the root of a file is the path of the same file, and there is one. -/
structure Faithful (v : View) : Prop where
  file : ∀ p, v.isExecutable p = true → v.isFile p = true
  real : ∀ p, p.isAbsolute = false → v.isFile p = true →
    ∃ q, v.realPath? p = some q ∧ q.isAbsolute = true ∧ v.isFile q = true ∧
      (v.isExecutable p = true → v.isExecutable q = true)

/-- The path begins at the root and leads to a file, which can be run unless the settings name it. A
path from the root in the settings is taken as it is. -/
structure Present (v : View) (t : Toolchain) (path : Path) : Prop where
  absolute : path.isAbsolute = true
  file : v.isFile path = true
  executable : t.configured = none → v.isExecutable path = true
  asConfigured : ∀ p, t.configured = some p → p.isAbsolute = true → path = p

namespace Faithful

theorem canonical (faithful : v.Faithful) {p : Path} (file : v.isFile p = true) :
    (Lookup.canonical v p).isAbsolute = true ∧ v.isFile (Lookup.canonical v p) = true ∧
      (v.isExecutable p = true → v.isExecutable (Lookup.canonical v p) = true) := by
  cases absolute : p.isAbsolute with
  | true =>
    rw [Lookup.canonical, if_pos absolute]
    exact ⟨absolute, file, id⟩
  | false =>
    obtain ⟨q, real, rest⟩ := faithful.real p absolute file
    rw [Lookup.canonical, if_neg (by simp [absolute]), real]
    exact rest

/-- What is found on a faithful machine is there. -/
theorem present (faithful : v.Faithful) {t : Toolchain} {path : Path}
    (found : (t.search v).1 = .ok path) : v.Present t path := by
  obtain ⟨p, rfl, ⟨chosen, file⟩ | ⟨free, runs⟩⟩ := t.search_eq_ok found
  · obtain ⟨absolute, there, -⟩ := faithful.canonical file
    refine ⟨absolute, there, fun free => ?_, fun q same fromRoot => ?_⟩
    · rw [chosen] at free
      cases free
    · obtain rfl := Option.some.inj (chosen.symm.trans same)
      rw [Lookup.canonical, if_pos fromRoot]
  · obtain ⟨absolute, there, executable⟩ := faithful.canonical (faithful.file p runs)
    refine ⟨absolute, there, fun _ => executable runs, fun q same => ?_⟩
    rw [free] at same
    cases same

/-- So no query is turned down because of the path. -/
theorem jobFor_ne_notAbsolute (faithful : v.Faithful) (t : Toolchain) (q : Query) (path : Path) :
    q.jobFor (t.search v).1 ≠ .error (.notAbsolute path) := by
  cases found : (t.search v).1 with
  | error e =>
    intro refused
    rw [Except.error.inj refused] at found
    exact t.search_ne_notAbsolute found
  | ok p =>
    rw [Query.jobFor, if_pos (faithful.present found).absolute]
    simp

end Faithful

end Lookup.View

/-! ### Worlds -/

namespace World

/-- The working directory is there, and the path from the root of a file that a relative path leads
to is not too long to be followed. -/
structure Settled (w : World) : Prop where
  names : ∀ name ∈ w.here, Path.IsName name
  there : w.files.isDirectory w.here w.directory = true
  short : ∀ p place node, p.isAbsolute = false → w.files.locate w.here p = .ok (place, node) →
    (FileTree.render place).bytes.length ≤ FileTree.longestPath

variable {w : World}

theorem Settled.reachable (settled : w.Settled) : w.files.Reachable w.here :=
  FileTree.reachable_of_isDirectory settled.names settled.there

/-- The path of a place where a relative path leads is as good as the relative one. -/
theorem Settled.locate_render (settled : w.Settled) {p : Path} {place : Place} {mode : Nat}
    {content : Bytes} (relative : p.isAbsolute = false)
    (located : w.files.locate w.here p = .ok (place, .file mode content)) :
    w.files.locate w.here (FileTree.render place) = .ok (place, .file mode content) := by
  obtain ⟨resolved, found⟩ := FileTree.locate_eq_ok.mp located
  have nonempty : place ≠ [] := by
    rintro rfl
    cases found
  have reachable : w.files.Reachable place := settled.reachable.resolve resolved
  exact FileTree.locate_eq_ok.mpr
    ⟨reachable.resolve_render nonempty (settled.short p place _ relative located), found⟩

/-- In a settled world the search sees what is there. -/
theorem Settled.faithful (settled : w.Settled) : (Lookup.View.ofWorld w).Faithful where
  file _ := FileTree.isFile_of_isExecutable
  real p relative file := by
    obtain ⟨place, mode, content, located⟩ := FileTree.exists_locate_of_isFile file
    have again := settled.locate_render relative located
    refine ⟨FileTree.render place, ?_, FileTree.isAbsolute_render place, ?_, fun runs => ?_⟩
    · simp only [Lookup.View.ofWorld, located]
    · change w.files.isFile w.here (FileTree.render place) = true
      rw [FileTree.isFile, again]
    · change w.files.isExecutable w.here p = true at runs
      change w.files.isExecutable w.here (FileTree.render place) = true
      rw [FileTree.isExecutable, located] at runs
      rw [FileTree.isExecutable, again]
      exact runs

end World

/-- A frontend that is found is there, and its path begins at the root: in every world with a
working directory, and on everything else that can be searched as long as relative paths of files
have paths from the root. No query is turned down because the path does not begin there. -/
theorem Toolchain.find_present (t : Toolchain) :
    (∀ w : World, w.Settled →
      (∀ path, (t.find w).1 = .ok path → (Lookup.View.ofWorld w).Present t path) ∧
      ∀ (q : Query) path, q.jobFor (t.find w).1 ≠ .error (.notAbsolute path)) ∧
    ∀ v : Lookup.View, v.Faithful →
      (∀ path, (t.search v).1 = .ok path → v.Present t path) ∧
      ∀ (q : Query) path, q.jobFor (t.search v).1 ≠ .error (.notAbsolute path) := by
  have everywhere : ∀ v : Lookup.View, v.Faithful →
      (∀ path, (t.search v).1 = .ok path → v.Present t path) ∧
      ∀ (q : Query) path, q.jobFor (t.search v).1 ≠ .error (.notAbsolute path) :=
    fun v faithful => ⟨fun _ => faithful.present, faithful.jobFor_ne_notAbsolute t⟩
  exact ⟨fun w settled => everywhere _ settled.faithful, everywhere⟩

/-- A machine with one executable, where the program runs next to its directory. -/
def nearby : World where
  files := ⟨[([Utf8.encode "a"], .directory), ([Utf8.encode "a", Utf8.encode "b"], .directory),
    ([Utf8.encode "a", Utf8.encode "f"], .file 0o755 [])]⟩
  here := [Utf8.encode "a", Utf8.encode "b"]

theorem settled_nearby : nearby.Settled where
  names name mem := by
    have either : name = Utf8.encode "a" ∨ name = Utf8.encode "b" := by simpa [nearby] using mem
    obtain rfl | rfl := either
    · exact ⟨by decide, by decide, by decide, by decide⟩
    · exact ⟨by decide, by decide, by decide, by decide⟩
  there := by decide
  short p place node _ located := by
    obtain ⟨-, found⟩ := FileTree.locate_eq_ok.mp located
    rw [FileTree.find?] at found
    split at found
    · next root =>
      rw [root]
      decide
    · obtain ⟨before, behind, split, -⟩ := List.lookup_eq_some_iff.mp found
      have all : ∀ e ∈ nearby.files.entries,
          (FileTree.render e.1).bytes.length ≤ FileTree.longestPath := by decide
      exact all (place, node) (by simp [split])

/-- A relative path in the settings that leads through the parent of the working directory. -/
theorem Toolchain.find_present_nearby :
    nearby.Settled ∧
      ((⟨some (.ofString "../f"), none, none⟩ : Toolchain).find nearby).1 = .ok (.ofString "/a/f") ∧
      (Lookup.View.ofWorld nearby).Present ⟨some (.ofString "../f"), none, none⟩
        (.ofString "/a/f") := by
  have found : ((⟨some (.ofString "../f"), none, none⟩ : Toolchain).find nearby).1
      = .ok (.ofString "/a/f") := by rfl
  exact ⟨settled_nearby, found,
    ((Toolchain.find_present _).1 nearby settled_nearby).1 _ found⟩

end TargetQuery
