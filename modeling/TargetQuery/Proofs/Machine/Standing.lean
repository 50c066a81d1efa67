import TargetQuery.Proofs.Machine.Directories

/-!
# What stands at a path

The path of a place leads to the place, if everything above it is a directory. So what stands at the
path of a place does not change when directories are made, unless one of them is made there. A file
that is made or removed changes nothing about other places.
-/

namespace TargetQuery.FileTree

variable {t t' : FileTree} {here place : Place} {p : Path}

/-- What stands where a path leads. -/
def node? (t : FileTree) (here : Place) (p : Path) : Option Node :=
  match t.locate here p with
  | .ok (_, node) => some node
  | .error _ => none

theorem node?_eq_some {node : Node} : t.node? here p = some node ↔
    ∃ place, t.resolve here p = .ok place ∧ t.find? place = some node := by
  rw [node?]
  constructor
  · intro h
    split at h
    · next place found located =>
      obtain rfl := Option.some.inj h
      exact ⟨place, locate_eq_ok.mp located⟩
    · cases h
  · rintro ⟨place, located⟩
    rw [locate_eq_ok.mpr located]

theorem exists?_eq_isSome : t.exists? here p = (t.node? here p).isSome := by
  rw [exists?, node?]
  cases t.locate here p <;> rfl

theorem isFile_iff_node? : t.isFile here p = true ↔
    ∃ mode content, t.node? here p = some (.file mode content) := by
  rw [isFile, node?]
  cases t.locate here p with
  | error failure => simp
  | ok found =>
    obtain ⟨place, node⟩ := found
    cases node <;> simp

/-- Reading depends on what stands at the path, but not on the place that the path leads to. -/
theorem read_of_node? {node : Node} (h : t.node? here p = some node)
    (h' : t'.node? here p = some node) : t'.read here p = t.read here p := by
  obtain ⟨place, located⟩ := node?_eq_some.mp h
  obtain ⟨place', located'⟩ := node?_eq_some.mp h'
  rw [read, read, locate_eq_ok.mpr located, locate_eq_ok.mpr located']
  cases node <;> rfl

theorem exists?_of_read {content : Bytes} (h : t.read here p = .ok content) :
    t.exists? here p = true := by
  rw [exists?]
  cases located : t.locate here p with
  | error failure =>
    rw [read, located] at h
    cases h
  | ok found => rfl

/-! ### Changes at one place -/

/-- The trees have the same directories, and differ at no more than one place. -/
structure DiffersAt (t t' : FileTree) (place : Place) : Prop where
  keeps : KeepsDirectories t t'
  kept : KeepsDirectories t' t
  elsewhere : ∀ q ≠ place, t'.find? q = t.find? q

theorem DiffersAt.put {node : Node} (nonempty : place ≠ [])
    (before : t.find? place ≠ some .directory) (after : node ≠ .directory) :
    DiffersAt t (t.put place node) place where
  keeps := .put nonempty before
  kept q isDirectory := by
    rw [find?_put t place q node nonempty] at isDirectory
    split at isDirectory
    · exact absurd (Option.some.inj isDirectory) after
    · exact isDirectory
  elsewhere q other := by rw [find?_put t place q node nonempty, if_neg other]

theorem DiffersAt.erase (nonempty : place ≠ []) (before : t.find? place ≠ some .directory) :
    DiffersAt t (t.erase place) place where
  keeps q isDirectory := by
    have other : q ≠ place := by
      rintro rfl
      exact before isDirectory
    rw [find?_erase t place q nonempty, if_neg other, isDirectory]
  kept q isDirectory := by
    rw [find?_erase t place q nonempty] at isDirectory
    split at isDirectory
    · cases isDirectory
    · exact isDirectory
  elsewhere q other := by rw [find?_erase t place q nonempty, if_neg other]

/-! ### Paths of places -/

/-- The path of a name in a directory is that of the directory joined to the name. -/
theorem render_join (names : ∀ name ∈ here, Path.IsName name) {q : Path}
    (isName : Path.IsName q.bytes) : (render here).join q = render (here ++ [q.bytes]) := by
  have relative : q.isAbsolute = false := by
    obtain ⟨b, s, bytes⟩ := List.exists_cons_of_ne_nil isName.nonempty
    have whole := isName.whole
    rw [bytes, List.mem_cons, not_or] at whole
    simpa [Path.isAbsolute, bytes] using Ne.symm whole.1
  have rendered : ∀ place : Place, place ≠ [] →
      render place = ⟨place.flatMap fun name => Ascii.slash :: name⟩ := by
    intro place nonempty
    obtain ⟨name, more, rfl⟩ := List.exists_cons_of_ne_nil nonempty
    rfl
  rw [rendered (here ++ [q.bytes]) (by simp), List.flatMap_append, List.flatMap_singleton]
  cases here using List.reverseRecOn with
  | nil =>
    have root : (render []).bytes.getLast? = some Ascii.slash := rfl
    simp only [Path.join, relative, root]
    rfl
  | append_singleton before name =>
    have last : Path.IsName name := names name (by simp)
    obtain ⟨s, b, rfl⟩ : ∃ s b, name = s ++ [b] :=
      ⟨name.dropLast, name.getLast last.nonempty, (List.dropLast_concat_getLast _).symm⟩
    have notSlash : b ≠ Ascii.slash := by
      rintro rfl
      exact last.whole (by simp)
    have ends : (render (before ++ [s ++ [b]])).bytes.getLast? = some b := by
      rw [rendered _ (by simp), List.flatMap_append, List.flatMap_singleton, ← List.cons_append,
        ← List.append_assoc, List.getLast?_concat]
    simp only [Path.join, relative, ends, beq_eq_false_iff_ne.mpr notSlash, Bool.false_eq_true,
      if_false]
    rw [rendered _ (by simp)]

theorem isAbsolute_render (place : Place) : (render place).isAbsolute = true := by
  cases place <;> rfl

theorem splitSlash_render (names : ∀ name ∈ place, Path.IsName name) (nonempty : place ≠ []) :
    Path.splitSlash (render place).bytes = [] :: place := by
  have whole : ∀ name ∈ place, Ascii.slash ∉ name := fun name h => (names name h).whole
  obtain ⟨name, more, rfl⟩ := List.exists_cons_of_ne_nil nonempty
  exact Path.splitSlash_names whole

theorem walk_name_cons_eq_ok {name : Bytes} (isName : Path.IsName name) {more : List Bytes}
    {there : Place} : t.walk here (name :: more) = .ok there ↔ t.find? here = some .directory ∧
      name.length ≤ longestName ∧ t.walk (here ++ [name]) more = .ok there := by
  rw [walk_cons_eq_ok, if_neg (not_or.mpr ⟨isName.nonempty, isName.notHere⟩),
    if_neg isName.notParent]

/-- Names lead to the place below that they spell. -/
theorem eq_of_walk_names {names : List Bytes} (isName : ∀ name ∈ names, Path.IsName name)
    {there : Place} (h : t.walk here names = .ok there) : there = here ++ names := by
  induction names generalizing here with
  | nil =>
    obtain rfl := Except.ok.inj h
    exact (List.append_nil here).symm
  | cons name names ih =>
    rw [List.forall_mem_cons] at isName
    rw [walk_name_cons_eq_ok isName.1] at h
    rw [ih isName.2 h.2.2, List.append_assoc, List.singleton_append]

/-- Names that lead somewhere do so in any tree that has directories on the way. -/
theorem walk_names_of {names : List Bytes} (isName : ∀ name ∈ names, Path.IsName name)
    {there : Place} (h : t'.walk here names = .ok there)
    (onTheWay : ∀ q, q <+: here ++ names → q ≠ here ++ names → t.find? q = some .directory) :
    t.walk here names = .ok there := by
  induction names generalizing here with
  | nil => exact h
  | cons name names ih =>
    rw [List.forall_mem_cons] at isName
    rw [walk_name_cons_eq_ok isName.1] at h ⊢
    have first := onTheWay here (List.prefix_append _ _) (by simp)
    have parts : here ++ name :: names = here ++ [name] ++ names := by simp
    rw [parts] at onTheWay
    exact ⟨first, h.2.1, ih isName.2 h.2.2 onTheWay⟩

/-- Everything above something in a sound tree is a directory. -/
theorem Sound.directory_of_prefix (sound : t.Sound) {node : Node}
    (found : t.find? place = some node) {q : Place} (above : q <+: place) (proper : q ≠ place) :
    t.find? q = some .directory := by
  induction place using List.reverseRecOn generalizing node with
  | nil => exact absurd (List.prefix_nil.mp above) proper
  | append_singleton before name ih =>
    have held := sound _ node found
    rw [List.dropLast_concat] at held
    obtain same | above := List.prefix_concat_iff.mp above
    · exact absurd same proper
    · by_cases same : q = before
      · rw [same]
        exact held
      · exact ih held above same

theorem resolve_render_eq_ok (names : ∀ name ∈ place, Path.IsName name) (nonempty : place ≠ [])
    {there : Place} : t.resolve here (render place) = .ok there ↔
      ((render place).bytes.contains Ascii.nul = false ∧ (render place).bytes ≠ [] ∧
        (render place).bytes.length ≤ longestPath) ∧ t.walk [] place = .ok there := by
  rw [resolve, follow_eq_ok, isAbsolute_render, if_pos rfl, splitSlash_render names nonempty,
    walk_cons_eq_ok, if_pos (.inl rfl)]
  simp [find?]

/-- The path of a place leads nowhere else. -/
theorem eq_of_resolve_render (names : ∀ name ∈ place, Path.IsName name) (nonempty : place ≠ [])
    {there : Place} (h : t.resolve here (render place) = .ok there) : there = place :=
  eq_of_walk_names names ((resolve_render_eq_ok names nonempty).mp h).2

/-- Making directories changes nothing about a path that leads to a place where no directory is
made. -/
theorem Extends.node?_render (h : Extends t t') (sound : t.Sound)
    (names : ∀ name ∈ place, Path.IsName name) (nonempty : place ≠ [])
    (other : t'.find? place ≠ some .directory) :
    t'.node? here (render place) = t.node? here (render place) := by
  refine Option.ext fun node => ?_
  rw [node?_eq_some, node?_eq_some]
  constructor
  · rintro ⟨there, resolved, found⟩
    obtain rfl := eq_of_resolve_render names nonempty resolved
    obtain found | rfl := h.added found
    · refine ⟨there, ?_, found⟩
      rw [resolve_render_eq_ok names nonempty] at resolved ⊢
      exact ⟨resolved.1, walk_names_of names resolved.2 fun q above proper =>
        sound.directory_of_prefix found above proper⟩
    · exact absurd found other
  · rintro ⟨there, resolved, found⟩
    exact ⟨there, resolve_mono h.keepsDirectories resolved, h.kept found⟩

end TargetQuery.FileTree
