import TargetQuery.Proofs.Machine.Standing

/-!
# Places that can be reached

Whoever walks from a place that can be reached gets to places that can be reached, through links to
the parent directory too. The path of such a place leads there from everywhere, unless it is too
long.
-/

namespace TargetQuery

/-- What a file system takes as the name of a file or directory. -/
structure Path.IsUsable (name : Bytes) : Prop extends Path.IsName name where
  noNul : Ascii.nul ∉ name
  short : name.length ≤ FileTree.longestName

namespace Bytes

/-- The stretches have no other bytes than the whole, and none of them has a separator. -/
theorem not_mem_of_mem_cut {separator b : UInt8} {s stretch : Bytes}
    (mem : stretch ∈ cut separator s) (absent : b = separator ∨ b ∉ s) : b ∉ stretch := by
  induction s generalizing stretch with
  | nil =>
    obtain rfl : stretch = [] := by simpa [cut] using mem
    exact List.not_mem_nil
  | cons c s ih =>
    have behind : b = separator ∨ b ∉ s :=
      absent.imp id fun h inside => h (List.mem_cons_of_mem c inside)
    by_cases same : c = separator
    · subst same
      rw [cut_cons_same, List.mem_cons] at mem
      obtain rfl | mem := mem
      · exact List.not_mem_nil
      · exact ih mem behind
    · obtain ⟨first, more, parts⟩ : ∃ first more, cut separator s = first :: more :=
        List.exists_cons_of_ne_nil (cut_ne_nil s)
      rw [cut_cons_other same parts, List.mem_cons] at mem
      rw [parts] at ih
      obtain rfl | mem := mem
      · rw [List.mem_cons, not_or]
        refine ⟨?_, ih List.mem_cons_self behind⟩
        rintro rfl
        obtain rfl | absent := absent
        · exact same rfl
        · exact absent List.mem_cons_self
      · exact ih (List.mem_cons_of_mem _ mem) behind

end Bytes

namespace FileTree

variable {t : FileTree} {here place : Place} {p : Path}

/-- Usable names lead to the place, through directories. -/
structure Reachable (t : FileTree) (place : Place) : Prop where
  names : ∀ name ∈ place, Path.IsUsable name
  above : ∀ q, q <+: place → q ≠ place → t.find? q = some .directory

namespace Reachable

theorem root : t.Reachable [] where
  names := List.forall_mem_nil _
  above _ isPrefix proper := absurd (List.prefix_nil.mp isPrefix) proper

theorem dropLast (reachable : t.Reachable place) : t.Reachable place.dropLast where
  names name mem := reachable.names name ((List.dropLast_prefix place).subset mem)
  above q isPrefix proper := by
    refine reachable.above q (isPrefix.trans (List.dropLast_prefix place)) ?_
    rintro rfl
    exact proper (isPrefix.eq_of_length_le (by simp))

theorem concat (reachable : t.Reachable here) (isDirectory : t.find? here = some .directory)
    {name : Bytes} (usable : Path.IsUsable name) : t.Reachable (here ++ [name]) where
  names := List.forall_mem_append.mpr ⟨reachable.names, by simpa using usable⟩
  above q isPrefix proper := by
    obtain same | isPrefix := List.prefix_concat_iff.mp isPrefix
    · exact absurd same proper
    · by_cases same : q = here
      · rw [same]
        exact isDirectory
      · exact reachable.above q isPrefix same

/-- A walk stays among the places that can be reached. -/
theorem walk (reachable : t.Reachable here) {stretches : List Bytes}
    (clean : ∀ s ∈ stretches, Ascii.slash ∉ s ∧ Ascii.nul ∉ s)
    (h : t.walk here stretches = .ok place) : t.Reachable place := by
  induction stretches generalizing here with
  | nil =>
    obtain rfl := Except.ok.inj h
    exact reachable
  | cons stretch more ih =>
    rw [List.forall_mem_cons] at clean
    rw [walk_cons_eq_ok] at h
    obtain ⟨isDirectory, h⟩ := h
    split at h
    · exact ih reachable clean.2 h
    split at h
    · exact ih reachable.dropLast clean.2 h
    · next descends named =>
      rw [not_or] at descends
      have usable : Path.IsUsable stretch :=
        { nonempty := descends.1, whole := clean.1.1, notHere := descends.2, notParent := named
          noNul := clean.1.2, short := h.1 }
      exact ih (reachable.concat isDirectory usable) clean.2 h.2

theorem resolve (reachable : t.Reachable here) (h : t.resolve here p = .ok place) :
    t.Reachable place := by
  obtain ⟨⟨noNul, -, -⟩, walked⟩ := follow_eq_ok.mp h
  have clean : ∀ s ∈ Path.splitSlash p.bytes, Ascii.slash ∉ s ∧ Ascii.nul ∉ s := fun s mem =>
    ⟨Bytes.not_mem_of_mem_cut mem (.inl rfl),
      Bytes.not_mem_of_mem_cut mem (.inr (by simpa using noNul))⟩
  refine Reachable.walk ?_ clean walked
  split
  · exact root
  · exact reachable

/-- The names of the place lead to it. -/
theorem walk_names (reachable : t.Reachable place) : t.walk [] place = .ok place := by
  induction place using List.reverseRecOn with
  | nil => rfl
  | append_singleton before name ih =>
    have last := reachable.names name (by simp)
    have earlier : t.Reachable before := by simpa using reachable.dropLast
    rw [walk_append_eq_ok]
    exact ⟨before, ih earlier, (walk_name_eq_ok last.toIsName).mpr
      ⟨reachable.above before (List.prefix_append _ _) (by simp), last.short, rfl⟩⟩

theorem nul_not_mem_render (reachable : t.Reachable place) : Ascii.nul ∉ (render place).bytes := by
  cases place with
  | nil => decide
  | cons name more =>
    change Ascii.nul ∉ (name :: more).flatMap _
    rw [List.mem_flatMap]
    rintro ⟨name', mem, inside⟩
    rw [List.mem_cons] at inside
    obtain slash | inside := inside
    · exact absurd slash (by decide)
    · exact (reachable.names name' mem).noNul inside

/-- The path of the place leads to it. -/
theorem resolve_render (reachable : t.Reachable place) (nonempty : place ≠ [])
    (short : (render place).bytes.length ≤ longestPath) :
    t.resolve here (render place) = .ok place := by
  have names : ∀ name ∈ place, Path.IsName name :=
    fun name mem => (reachable.names name mem).toIsName
  refine (resolve_render_eq_ok names nonempty).mpr ⟨⟨?_, ?_, short⟩, reachable.walk_names⟩
  · simpa using reachable.nul_not_mem_render
  · obtain ⟨name, more, rfl⟩ := List.exists_cons_of_ne_nil nonempty
    exact List.cons_ne_nil _ _

end Reachable

/-- A directory whose names are usable can be reached if its own path leads to it. -/
theorem reachable_of_isDirectory (names : ∀ name ∈ place, Path.IsName name)
    (there : t.isDirectory here (render place) = true) : t.Reachable place := by
  by_cases root : place = []
  · rw [root]
    exact .root
  · obtain ⟨end_, resolved, -⟩ := isDirectory_iff.mp there
    obtain rfl := eq_of_resolve_render names root resolved
    obtain ⟨⟨noNul, -, -⟩, walked⟩ := (resolve_render_eq_ok names root).mp resolved
    refine Reachable.walk .root (fun name mem => ⟨(names name mem).whole, fun inside => ?_⟩) walked
    have nul : Ascii.nul ∈ (render end_).bytes := by
      obtain ⟨first, more, rfl⟩ := List.exists_cons_of_ne_nil root
      exact List.mem_flatMap.mpr ⟨name, mem, List.mem_cons_of_mem _ inside⟩
    simp [nul] at noNul

end FileTree

end TargetQuery
