import TargetQuery.Proofs.Lookup.Finding

/-!
# The order of the search

What looking for the frontend comes to, said without a search. A path in the settings settles the
matter alone. What the environment names counts next, and then the usual names, one after the other:
the first of them that any directory has, in the first directory that has it. Where all of this
fails, the failure lists what has been tried. This holds of every orderly machine, with links or
without.
-/

namespace TargetQuery

/-! ### Paths that end like a directory -/

namespace Path

/-- What stands behind the last slash is that of the second path. -/
theorem getLast?_splitSlash_join (p q : Path) :
    (splitSlash (p.join q).bytes).getLast? = (splitSlash q.bytes).getLast? := by
  have behind : ∀ s, (splitSlash (s ++ Ascii.slash :: q.bytes)).getLast?
      = (splitSlash q.bytes).getLast? := by
    intro s
    rw [splitSlash_append_slash]
    exact List.getLast?_append_of_ne_nil _ (Bytes.cut_ne_nil q.bytes)
  rw [join]
  split
  · rfl
  split
  · rfl
  · next last ends =>
    split
    · next slash =>
      obtain ⟨s, split⟩ := List.getLast?_eq_some_iff.mp ends
      rw [split, eq_of_beq slash, List.append_assoc, List.singleton_append]
      exact behind s
    · exact behind p.bytes

theorem length_filterMap_componentOf?_pos {stretches : List Bytes} {x : Bytes}
    (mem : x ∈ stretches) (h : ¬ (x = [] ∨ x = dot)) :
    0 < (stretches.filterMap componentOf?).length := by
  obtain ⟨c, hc⟩ : ∃ c, componentOf? x = some c := by
    rw [componentOf?, if_neg h]
    split
    · exact ⟨.parent, rfl⟩
    · exact ⟨.name x, rfl⟩
  exact List.length_pos_of_mem (List.mem_filterMap.mpr ⟨x, mem, hc⟩)

/-- A path without a slash has at most one component. -/
theorem length_components_of_whole {s : Bytes} (whole : Ascii.slash ∉ s) :
    (Path.mk s).components.length ≤ 1 := by
  have relative : (Path.mk s).isAbsolute = false := by
    cases s with
    | nil => rfl
    | cons b s =>
      have other : b ≠ Ascii.slash := fun h => whole (h ▸ List.mem_cons_self)
      simpa [isAbsolute] using other
  simp only [components, relative, splitSlash_of_whole whole, Bool.false_eq_true, if_false,
    List.head?_cons, Option.some.injEq]
  split
  · next here => simp [here, componentOf?]
  · exact List.length_filterMap_le _ _

/-- A path with a slash in it and no more than one component ends like that of a directory. -/
theorem getLast?_splitSlash_of_single {s : Bytes} (slash : Ascii.slash ∈ s)
    (single : (Path.mk s).components.length ≤ 1) :
    ∃ x, (splitSlash s).getLast? = some x ∧ (x = [] ∨ x = dot) := by
  obtain ⟨front, back, rfl⟩ := List.append_of_mem slash
  obtain ⟨x, last⟩ : ∃ x, (splitSlash back).getLast? = some x :=
    ⟨_, List.getLast?_eq_some_getLast (Bytes.cut_ne_nil back)⟩
  refine ⟨x, ?_, ?_⟩
  · rw [splitSlash_append_slash]
    exact (List.getLast?_append_of_ne_nil _ (Bytes.cut_ne_nil back)).trans last
  by_contra named
  have behind := length_filterMap_componentOf?_pos (List.mem_of_getLast? last) named
  simp only [components, splitSlash_append_slash, List.filterMap_append] at single
  split at single
  · simp only [List.length_cons, List.length_append] at single
    omega
  split at single
  · simp only [List.length_cons, List.length_append] at single
    omega
  · next relative notHere =>
    -- The first stretch is a component of its own, besides the last one.
    cases front with
    | nil => exact absurd rfl relative
    | cons b front =>
      have other : b ≠ Ascii.slash := by simpa [isAbsolute] using relative
      obtain ⟨first, more, split⟩ := List.exists_cons_of_ne_nil (Bytes.cut_ne_nil front)
      have stretches : splitSlash (b :: front) = (b :: first) :: more :=
        Bytes.cut_cons_other other split
      rw [stretches] at single notHere
      have ahead := length_filterMap_componentOf?_pos
        (List.mem_cons_self : b :: first ∈ (b :: first) :: more) (by simpa using notHere)
      rw [List.length_append] at single
      omega

end Path

namespace Lookup

variable {v : View} {searchPath : Option Bytes}

/-- A path is seen from the root as it is, or as that of the place where it leads. -/
def MadeAbsolute (v : View) (p found : Path) : Prop :=
  if p.isAbsolute then found = p else v.realPath? p = some found

theorem madeAbsolute_iff (orderly : v.Orderly) {p found : Path} (file : v.isFile p = true) :
    MadeAbsolute v p found ↔ found = canonical v p := by
  rw [MadeAbsolute, canonical]
  split
  · rfl
  · next relative =>
    obtain ⟨q, real, -⟩ := orderly.real p (eq_false_of_ne_true relative) file
    rw [real, Option.getD_some, Option.some.injEq, eq_comm]

theorem madeAbsolute_of_isExecutable (orderly : v.Orderly) {p found : Path}
    (runs : v.isExecutable p = true) : MadeAbsolute v p found ↔ found = canonical v p :=
  madeAbsolute_iff orderly (orderly.file p runs)

/-! ### Bare names -/

/-- Where a name would be in a directory of the search path. -/
def within (v : View) (name d : Bytes) : Path := (searched v ⟨d⟩).join ⟨name⟩

/-- A directory of the search path has an executable of the name. -/
def Holds (v : View) (name d : Bytes) : Prop := v.isExecutable (within v name d) = true

/-- No directory of the search path has an executable of the name. -/
def Nowhere (v : View) (searchPath : Option Bytes) (name : Bytes) : Prop :=
  ∀ s ∈ searchPath, ∀ d ∈ directories s, ¬ Holds v name d

/-- The executable of the name in the first directory of the search path that has one. -/
def FirstIn (v : View) (searchPath : Option Bytes) (name : Bytes) (found : Path) : Prop :=
  ∃ s ∈ searchPath, ∃ before d behind, directories s = before ++ d :: behind ∧
    (∀ earlier ∈ before, ¬ Holds v name earlier) ∧ Holds v name d ∧
      MadeAbsolute v (within v name d) found

section

variable {name : Bytes}

theorem candidates_of_single (single : (Path.mk name).components.length ≤ 1) :
    candidates v searchPath ⟨name⟩ =
      (searchPath.elim [] directories).map (within v name) := by
  rw [candidates.eq_def, if_neg (by omega)]
  cases searchPath <;> rfl

theorem firstExecutable_eq_none_of_single (single : (Path.mk name).components.length ≤ 1) :
    firstExecutable v searchPath ⟨name⟩ = none ↔ Nowhere v searchPath name := by
  rw [firstExecutable, Option.map_eq_none_iff, List.find?_eq_none, candidates_of_single single,
    List.forall_mem_map, Nowhere]
  cases searchPath <;> simp [Holds]

/-- A bare name leads to the first directory of the search path that has a program of that name. -/
theorem firstExecutable_eq_some_of_single (orderly : v.Orderly)
    (single : (Path.mk name).components.length ≤ 1) {found : Path} :
    firstExecutable v searchPath ⟨name⟩ = some found ↔ FirstIn v searchPath name found := by
  rw [firstExecutable, candidates_of_single single, List.find?_map, Option.map_map,
    Option.map_eq_some_iff]
  constructor
  · rintro ⟨d, first, rfl⟩
    obtain ⟨runs, before, behind, split, earlier⟩ := List.find?_eq_some_iff_append.mp first
    cases searchPath with
    | none => simp at split
    | some s =>
      refine ⟨s, rfl, before, d, behind, split, ?_, runs, ?_⟩
      · simpa [Holds] using earlier
      · exact (madeAbsolute_of_isExecutable orderly runs).mpr rfl
  · rintro ⟨s, rfl, before, d, behind, split, earlier, runs, absolute⟩
    refine ⟨d, ?_, ((madeAbsolute_of_isExecutable orderly runs).mp absolute).symm⟩
    refine List.find?_eq_some_iff_append.mpr ⟨runs, before, behind, split, ?_⟩
    simpa [Holds] using earlier

end

/-! ### What the environment names -/

/-- The executable that a value leads to. One with a slash is a path, and leads there from the
working directory by its components; if there is just one, nothing but a directory can be meant.
One without is a name to search for. -/
inductive Names (v : View) (searchPath : Option Bytes) (value : Bytes) : Path → Prop where
  | path {found : Path} (slash : Ascii.slash ∈ value)
      (several : 1 < (Path.mk value).components.length)
      (runs : v.isExecutable (absoluteFrom v.directory ⟨value⟩) = true)
      (absolute : MadeAbsolute v (absoluteFrom v.directory ⟨value⟩) found) :
      Names v searchPath value found
  | name {found : Path} (nonempty : value ≠ []) (bare : Ascii.slash ∉ value)
      (first : FirstIn v searchPath value found) : Names v searchPath value found

/-- A value that is empty, or has a slash and just one component, leads nowhere. -/
theorem nowhere_of_last (orderly : v.Orderly) {value x : Bytes}
    (last : (Path.splitSlash value).getLast? = some x) (stays : x = [] ∨ x = Path.dot) :
    Nowhere v searchPath value := by
  intro s _ d _ runs
  have noFile := orderly.stays (within v value d) x
    ((Path.getLast?_splitSlash_join (searched v ⟨d⟩) ⟨value⟩).trans last) stays
  rw [orderly.file _ runs] at noFile
  cases noFile

/-- A value is found as what it names. -/
theorem firstExecutable_eq_some_iff_names (orderly : v.Orderly) {value : Bytes} {found : Path} :
    firstExecutable v searchPath ⟨value⟩ = some found ↔ Names v searchPath value found := by
  by_cases several : 1 < (Path.mk value).components.length
  · have slash : Ascii.slash ∈ value := by
      by_contra bare
      have := Path.length_components_of_whole bare
      omega
    rw [firstExecutable, candidates.eq_def, if_pos several, List.find?_singleton]
    constructor
    · intro first
      split at first
      · next runs =>
        refine .path slash several runs ((madeAbsolute_of_isExecutable orderly runs).mpr ?_)
        exact (Option.some.inj first).symm
      · cases first
    · intro names
      cases names with
      | path _ _ runs absolute =>
        rw [if_pos runs, (madeAbsolute_of_isExecutable orderly runs).mp absolute]
        rfl
      | name _ bare _ => exact absurd slash bare
  · have single : (Path.mk value).components.length ≤ 1 := by omega
    by_cases named : value ≠ [] ∧ Ascii.slash ∉ value
    · rw [firstExecutable_eq_some_of_single orderly single]
      constructor
      · exact .name named.1 named.2
      · intro names
        cases names with
        | path slash _ _ _ => exact absurd slash named.2
        | name _ _ first => exact first
    · obtain ⟨x, last, stays⟩ : ∃ x, (Path.splitSlash value).getLast? = some x ∧
          (x = [] ∨ x = Path.dot) := by
        by_cases slash : Ascii.slash ∈ value
        · exact Path.getLast?_splitSlash_of_single slash single
        · obtain rfl : value = [] := by
            by_contra nonempty
            exact named ⟨nonempty, slash⟩
          exact ⟨[], rfl, .inl rfl⟩
      rw [(firstExecutable_eq_none_of_single single).mpr (nowhere_of_last orderly last stays)]
      constructor
      · intro h
        cases h
      · intro names
        cases names with
        | path _ several' _ _ => exact absurd several' several
        | name nonempty bare _ => exact absurd ⟨nonempty, bare⟩ named

end Lookup

namespace Toolchain

open Lookup

variable {t : Toolchain} {v : View}

/-! ### The order -/

/-- What the environment names, if anything, is no executable. -/
def Passed (t : Toolchain) (v : View) : Prop :=
  ∀ value ∈ t.override, ∀ found, ¬ Names v t.searchPath value found

/-- What the search for the frontend must give. -/
inductive Answers (t : Toolchain) (v : View) : Except LookupError Path → Prop where
  | configured {p found : Path} (chosen : t.configured = some p)
      (file : v.isFile p = true) (absolute : MadeAbsolute v p found) :
      Answers t v (.ok found)
  | configuredMissing {p : Path} (chosen : t.configured = some p)
      (missing : v.isFile p = false) :
      Answers t v (.error (.configuredMissing p))
  | override {value : Bytes} {found : Path} (free : t.configured = none)
      (named : t.override = some value) (leads : Names v t.searchPath value found) :
      Answers t v (.ok found)
  | specific {found : Path} (free : t.configured = none) (passed : t.Passed v)
      (first : FirstIn v t.searchPath (Utf8.encode "swift-frontend") found) :
      Answers t v (.ok found)
  | general {found : Path} (free : t.configured = none) (passed : t.Passed v)
      (nowhere : Nowhere v t.searchPath (Utf8.encode "swift-frontend"))
      (first : FirstIn v t.searchPath (Utf8.encode "swiftc") found) :
      Answers t v (.ok found)
  | notFound (free : t.configured = none) (passed : t.Passed v)
      (nowhere : Nowhere v t.searchPath (Utf8.encode "swift-frontend"))
      (nowhere' : Nowhere v t.searchPath (Utf8.encode "swiftc")) :
      Answers t v (.error (.notFound (t.tried ++
        ["`swift-frontend` on PATH", "`swiftc` on PATH"])))

theorem length_components_of_specific :
    (Path.mk (Utf8.encode "swift-frontend")).components.length ≤ 1 :=
  Path.length_components_of_whole (by decide)

theorem length_components_of_general :
    (Path.mk (Utf8.encode "swiftc")).components.length ≤ 1 :=
  Path.length_components_of_whole (by decide)

theorem search_of_override {value : Bytes} {found : Path} (free : t.configured = none)
    (named : t.override = some value)
    (first : firstExecutable v t.searchPath ⟨value⟩ = some found) :
    (t.search v).1 = .ok found := by
  rw [search_of_free free, names, named, Option.toList_some, List.map_singleton,
    List.singleton_append, List.findSome?_cons, first]

/-- The search for the usual names, the specific one before the general one. -/
theorem search_of_passed (free : t.configured = none)
    (passed : ∀ value ∈ t.override, firstExecutable v t.searchPath ⟨value⟩ = none) :
    (t.search v).1 =
      match firstExecutable v t.searchPath ⟨Utf8.encode "swift-frontend"⟩ with
      | some path => .ok path
      | none =>
        match firstExecutable v t.searchPath ⟨Utf8.encode "swiftc"⟩ with
        | some path => .ok path
        | none => .error (.notFound (t.tried ++
            ["`swift-frontend` on PATH", "`swiftc` on PATH"])) := by
  have named :
      (t.override.toList.map Path.mk).findSome? (firstExecutable v t.searchPath) = none := by
    simpa using passed
  rw [search_of_free free, names, List.findSome?_append, named]
  simp only [Frontend.executables, List.map_cons, List.map_nil, List.findSome?_cons,
    Path.ofString, Option.none_or]
  cases firstExecutable v t.searchPath ⟨Utf8.encode "swift-frontend"⟩ with
  | some path => rfl
  | none => cases firstExecutable v t.searchPath ⟨Utf8.encode "swiftc"⟩ <;> rfl

theorem passed_iff (orderly : v.Orderly) :
    t.Passed v ↔ ∀ value ∈ t.override, firstExecutable v t.searchPath ⟨value⟩ = none := by
  simp only [Passed, ← firstExecutable_eq_some_iff_names orderly,
    Option.eq_none_iff_forall_ne_some, ne_eq]

/-- The search gives an answer that it must give. -/
theorem answers_search (orderly : v.Orderly) (t : Toolchain) : t.Answers v (t.search v).1 := by
  cases chosen : t.configured with
  | some p =>
    rw [search_of_configured chosen]
    split
    · next file => exact .configured chosen file ((madeAbsolute_iff orderly file).mpr rfl)
    · next missing => exact .configuredMissing chosen (eq_false_of_ne_true missing)
  | none =>
    by_cases leads : ∃ value ∈ t.override, ∃ found, Names v t.searchPath value found
    · obtain ⟨value, named, found, leads⟩ := leads
      rw [search_of_override chosen named ((firstExecutable_eq_some_iff_names orderly).mpr leads)]
      exact .override chosen named leads
    · have passed : t.Passed v := fun value named found h => leads ⟨value, named, found, h⟩
      rw [search_of_passed chosen ((passed_iff orderly).mp passed)]
      cases specific : firstExecutable v t.searchPath ⟨Utf8.encode "swift-frontend"⟩ with
      | some found =>
        exact .specific chosen passed
          ((firstExecutable_eq_some_of_single orderly length_components_of_specific).mp specific)
      | none =>
        rw [firstExecutable_eq_none_of_single length_components_of_specific] at specific
        cases general : firstExecutable v t.searchPath ⟨Utf8.encode "swiftc"⟩ with
        | some found =>
          exact .general chosen passed specific
            ((firstExecutable_eq_some_of_single orderly length_components_of_general).mp general)
        | none =>
          rw [firstExecutable_eq_none_of_single length_components_of_general] at general
          exact .notFound chosen passed specific general

/-- The search gives every answer that it must give. -/
theorem search_of_answers (orderly : v.Orderly) {result : Except LookupError Path}
    (answers : t.Answers v result) : (t.search v).1 = result := by
  cases answers with
  | configured chosen file absolute =>
    rw [search_of_configured chosen, if_pos file, (madeAbsolute_iff orderly file).mp absolute]
  | configuredMissing chosen missing =>
    rw [search_of_configured chosen, missing]
    rfl
  | override free named leads =>
    exact search_of_override free named ((firstExecutable_eq_some_iff_names orderly).mpr leads)
  | specific free passed first =>
    rw [search_of_passed free ((passed_iff orderly).mp passed),
      (firstExecutable_eq_some_of_single orderly length_components_of_specific).mpr first]
  | general free passed nowhere first =>
    rw [search_of_passed free ((passed_iff orderly).mp passed),
      (firstExecutable_eq_none_of_single length_components_of_specific).mpr nowhere,
      (firstExecutable_eq_some_of_single orderly length_components_of_general).mpr first]
  | notFound free passed nowhere nowhere' =>
    rw [search_of_passed free ((passed_iff orderly).mp passed),
      (firstExecutable_eq_none_of_single length_components_of_specific).mpr nowhere,
      (firstExecutable_eq_none_of_single length_components_of_general).mpr nowhere']

/-- The order in which the frontend is looked for: in every world, and on every orderly machine, the
search gives what it must give, and nothing else could be given. -/
theorem find_iff_answers (t : Toolchain) :
    (∀ (w : World) result, (t.find w).1 = result ↔ t.Answers (View.ofWorld w) result) ∧
      ∀ v : View, v.Orderly → ∀ result, (t.search v).1 = result ↔ t.Answers v result := by
  have everywhere : ∀ v : View, v.Orderly →
      ∀ result, (t.search v).1 = result ↔ t.Answers v result := by
    intro v orderly result
    constructor
    · rintro rfl
      exact answers_search orderly t
    · exact search_of_answers orderly
  exact ⟨fun w => everywhere _ (orderly_ofWorld w), everywhere⟩

/-- The paths of a file: a link to it, seen from the working directory and from the root, and the
path where the link leads. -/
def linkedFiles : List Bytes :=
  ["frontend", "/work/frontend", "/opt/frontend-5"].map Utf8.encode

/-- A machine with a link. -/
def linked : View where
  home := .ofString "/root"
  directory := .ofString "/work"
  isFile p := linkedFiles.contains p.bytes
  isExecutable p := linkedFiles.contains p.bytes
  realPath? p :=
    if p.bytes = Utf8.encode "frontend" then some (.ofString "/opt/frontend-5") else none

theorem orderly_linked : linked.Orderly where
  file _ := id
  real p relative file := by
    have only : ∀ s ∈ linkedFiles, (Path.mk s).isAbsolute = false → s = Utf8.encode "frontend" := by
      decide
    have same := only p.bytes (List.contains_iff_mem.mp file) relative
    exact ⟨.ofString "/opt/frontend-5", if_pos same, by decide⟩
  stays p x last stays := by
    have ends : ∀ s ∈ linkedFiles, (Path.splitSlash s).getLast? ≠ some [] ∧
        (Path.splitSlash s).getLast? ≠ some Path.dot := by decide
    by_contra file
    have ends := ends p.bytes (List.contains_iff_mem.mp (eq_true_of_ne_false file))
    obtain rfl | rfl := stays
    · exact ends.1 last
    · exact ends.2 last

/-- A link that the settings name is followed, and one that the environment names is kept. -/
theorem find_iff_answers_linked :
    linked.Orderly ∧
      (Toolchain.mk (some (.ofString "frontend")) none none).Answers linked
        (.ok (.ofString "/opt/frontend-5")) ∧
      (Toolchain.mk none (some (Utf8.encode "./frontend")) none).Answers linked
        (.ok (.ofString "/work/frontend")) :=
  ⟨orderly_linked, ((find_iff_answers _).2 linked orderly_linked _).mp (by rfl),
    ((find_iff_answers _).2 linked orderly_linked _).mp (by rfl)⟩

end Toolchain

end TargetQuery
