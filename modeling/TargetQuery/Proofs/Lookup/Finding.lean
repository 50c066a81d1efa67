import TargetQuery.Lookup
import TargetQuery.Proofs.Machine.Notes
import TargetQuery.Proofs.Machine.Standing

/-!
# Finding the frontend

Looking for the frontend changes nothing. What is found is a file that the settings name or one that
can be run, and it is given as it is seen from the root. All of this is proved of whatever the
search can see, as long as files are told from directories and can be told from the root.
-/

namespace TargetQuery

namespace FileTree

variable {t : FileTree} {here : Place} {p : Path}

theorem exists_locate_of_isFile (h : t.isFile here p = true) :
    ∃ place mode content, t.locate here p = .ok (place, .file mode content) := by
  rw [isFile] at h
  split at h
  · next place mode content located => exact ⟨place, mode, content, located⟩
  · cases h

theorem exists_locate_of_isExecutable (h : t.isExecutable here p = true) :
    ∃ place mode content, t.locate here p = .ok (place, .file mode content) := by
  rw [isExecutable] at h
  split at h
  · next place mode content located => exact ⟨place, mode, content, located⟩
  · cases h

theorem isFile_of_isExecutable (h : t.isExecutable here p = true) : t.isFile here p = true := by
  obtain ⟨place, mode, content, located⟩ := exists_locate_of_isExecutable h
  rw [isFile, located]

/-- A path that ends like that of a directory leads to no file. -/
theorem isFile_eq_false_of_last {x : Bytes}
    (last : (Path.splitSlash p.bytes).getLast? = some x) (stays : x = [] ∨ x = Path.dot) :
    t.isFile here p = false := by
  by_contra h
  obtain ⟨place, mode, content, located⟩ := exists_locate_of_isFile (eq_true_of_ne_false h)
  obtain ⟨resolved, found⟩ := locate_eq_ok.mp located
  obtain ⟨before, split⟩ := List.getLast?_eq_some_iff.mp last
  rw [resolve, split, follow_eq_ok, walk_append_eq_ok] at resolved
  obtain ⟨-, mid, -, here⟩ := resolved
  rw [walk_cons_eq_ok, if_pos stays, walk, Except.ok.injEq] at here
  obtain ⟨isDirectory, rfl⟩ := here
  rw [found] at isDirectory
  cases isDirectory

end FileTree

namespace Lookup

/-! ### Machines -/

/-- Only files can be run, a relative path of a file has a path from the root, and a path that ends
like that of a directory leads to no file. -/
structure View.Orderly (v : View) : Prop where
  file : ∀ p, v.isExecutable p = true → v.isFile p = true
  real : ∀ p, p.isAbsolute = false → v.isFile p = true →
    ∃ q, v.realPath? p = some q ∧ q.isAbsolute = true
  stays : ∀ p x, (Path.splitSlash p.bytes).getLast? = some x → x = [] ∨ x = Path.dot →
    v.isFile p = false

/-- Every world is orderly. -/
theorem orderly_ofWorld (w : World) : (View.ofWorld w).Orderly where
  file _ := FileTree.isFile_of_isExecutable
  real p _ file := by
    obtain ⟨place, mode, content, located⟩ := FileTree.exists_locate_of_isFile file
    exact ⟨FileTree.render place, by simp only [View.ofWorld, located],
      FileTree.isAbsolute_render place⟩
  stays _ _ := FileTree.isFile_eq_false_of_last

variable {v : View}

theorem isAbsolute_canonical (orderly : v.Orderly) {p : Path} (file : v.isFile p = true) :
    (canonical v p).isAbsolute = true := by
  cases absolute : p.isAbsolute with
  | true =>
    rw [canonical, if_pos absolute]
    exact absolute
  | false =>
    obtain ⟨q, real, fromRoot⟩ := orderly.real p absolute file
    rw [canonical, if_neg (by simp [absolute]), real]
    exact fromRoot

theorem exists_of_firstExecutable {searchPath : Option Bytes} {name path : Path}
    (first : firstExecutable v searchPath name = some path) :
    ∃ p, v.isExecutable p = true ∧ path = canonical v p := by
  obtain ⟨p, found, rfl⟩ := Option.map_eq_some_iff.mp first
  exact ⟨p, List.find?_some found, rfl⟩

end Lookup

namespace Toolchain

open Lookup

variable (t : Toolchain) {v : View} {path : Path}

/-! ### Nothing changes -/

/-- What is said before the search plays no part in it, and nothing but that is different after. -/
theorem onlyNotes_find : OnlyNotes t.find := fun _ _ => ⟨_, rfl⟩

/-! ### The outcome -/

/-- The names that are searched for unless the settings choose a path, in their order. -/
def names : List Path :=
  t.override.toList.map Path.mk ++ Frontend.executables.map Path.ofString

/-- What has been tried before the search for the usual names, if that is reached. -/
def tried : List String :=
  (t.override.map fun value => "MOORING_FRONTEND=" ++ Utf8.lossy value).toList

/-- The first name that leads to an executable settles the search by name. If no name does, all of
them have been tried. -/
theorem searchByName_eq (searched names : List String) :
    (t.searchByName v searched names).1 =
      match (names.map Path.ofString).findSome? (firstExecutable v t.searchPath) with
      | some path => .ok path
      | none => .error (.notFound (searched ++
          names.map fun name => "`" ++ name ++ "` on PATH")) := by
  induction names generalizing searched with
  | nil => simp [searchByName]
  | cons name names ih =>
    rw [searchByName, List.map_cons, List.findSome?_cons]
    cases firstExecutable v t.searchPath (Path.ofString name) with
    | some path => rfl
    | none =>
      dsimp only
      rw [ih, List.append_assoc]
      rfl

variable {t}

theorem search_of_configured {p : Path} (chosen : t.configured = some p) :
    (t.search v).1 = if v.isFile p then .ok (canonical v p)
      else .error (.configuredMissing p) := by
  rw [search, chosen]
  dsimp only
  split <;> rfl

/-- Without a path in the settings, the first name that leads to an executable is what counts. -/
theorem search_of_free (free : t.configured = none) :
    (t.search v).1 =
      match t.names.findSome? (firstExecutable v t.searchPath) with
      | some path => .ok path
      | none => .error (.notFound (t.tried ++
          Frontend.executables.map fun name => "`" ++ name ++ "` on PATH")) := by
  rw [search, free, names, tried, List.findSome?_append]
  cases t.override with
  | none => exact t.searchByName_eq [] Frontend.executables
  | some value =>
    rw [Option.toList_some, List.map_singleton, List.findSome?_singleton]
    dsimp only
    cases firstExecutable v t.searchPath ⟨value⟩ with
    | some path => rfl
    | none =>
      exact t.searchByName_eq ["MOORING_FRONTEND=" ++ Utf8.lossy value] Frontend.executables

variable (t)

/-! ### What is found -/

/-- What is found is the file that the settings name, or else a file that can be run. -/
theorem search_eq_ok (found : (t.search v).1 = .ok path) :
    ∃ p, path = canonical v p ∧
      (t.configured = some p ∧ v.isFile p = true ∨
        t.configured = none ∧ v.isExecutable p = true) := by
  obtain free | ⟨p, chosen⟩ := Option.eq_none_or_eq_some t.configured
  · rw [search_of_free free] at found
    split at found
    · next _ leads =>
      obtain rfl := Except.ok.inj found
      obtain ⟨name, -, first⟩ := List.exists_of_findSome?_eq_some leads
      obtain ⟨p, runs, same⟩ := exists_of_firstExecutable first
      exact ⟨p, same, .inr ⟨free, runs⟩⟩
    · cases found
  · rw [search_of_configured chosen] at found
    split at found
    · next file => exact ⟨p, (Except.ok.inj found).symm, .inl ⟨chosen, file⟩⟩
    · cases found

/-- No failure of the search is about a path that is not absolute. -/
theorem search_ne_notAbsolute : (t.search v).1 ≠ .error (.notAbsolute path) := by
  obtain free | ⟨p, chosen⟩ := Option.eq_none_or_eq_some t.configured
  · rw [search_of_free free]
    split <;> simp
  · rw [search_of_configured chosen]
    split <;> simp

theorem isAbsolute_of_find {w : World} (found : (t.find w).1 = .ok path) :
    path.isAbsolute = true := by
  have orderly := orderly_ofWorld w
  obtain ⟨p, rfl, ⟨-, file⟩ | ⟨-, runs⟩⟩ := t.search_eq_ok found
  · exact isAbsolute_canonical orderly file
  · exact isAbsolute_canonical orderly (orderly.file p runs)

end Toolchain

end TargetQuery
