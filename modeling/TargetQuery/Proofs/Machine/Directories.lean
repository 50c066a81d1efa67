import TargetQuery.Proofs.Machine.FileTree

/-!
# Making directories

A directory that is made, with those above it, is there afterwards, and making it again changes
nothing. Nothing that stood in the tree is touched.
-/

namespace TargetQuery.FileTree

variable {t t' u : FileTree} {here place : Place} {p : Path}

/-! ### What is kept -/

/-- The other tree has everything that the tree has, and besides that only directories. -/
structure Extends (t t' : FileTree) : Prop where
  kept : ∀ {place node}, t.find? place = some node → t'.find? place = some node
  added : ∀ {place node}, t'.find? place = some node → t.find? place = some node ∨ node = .directory

namespace Extends

theorem refl (t : FileTree) : Extends t t := ⟨id, .inl⟩

theorem trans (h : Extends t t') (h' : Extends t' u) : Extends t u where
  kept found := h'.kept (h.kept found)
  added found := by
    obtain found | directory := h'.added found
    · exact h.added found
    · exact .inr directory

theorem keepsDirectories (h : Extends t t') : KeepsDirectories t t' := fun _ => h.kept

/-- A file that can be read has the same content as before. -/
theorem read_eq (h : Extends t t') {content : Bytes} (read : t.read here p = .ok content) :
    t'.read here p = .ok content := by
  cases located : t.locate here p with
  | error failure =>
    rw [FileTree.read, located] at read
    cases read
  | ok found =>
    obtain ⟨place, node⟩ := found
    obtain ⟨resolved, found⟩ := locate_eq_ok.mp located
    have located' : t'.locate here p = .ok (place, node) :=
      locate_eq_ok.mpr ⟨resolve_mono h.keepsDirectories resolved, h.kept found⟩
    rw [FileTree.read, located] at read
    rw [FileTree.read, located']
    exact read

end Extends

/-- Everything in the tree stands in a directory. -/
def Sound (t : FileTree) : Prop :=
  ∀ place node, t.find? place = some node → t.find? place.dropLast = some .directory

theorem Extends.put (absent : t.find? place = none) : Extends t (t.put place .directory) := by
  have nonempty : place ≠ [] := by
    rintro rfl
    simp [find?] at absent
  constructor
  · intro q node found
    have other : q ≠ place := by
      rintro rfl
      rw [absent] at found
      cases found
    rw [find?_put t place q .directory nonempty, if_neg other, found]
  · intro q node found
    rw [find?_put t place q .directory nonempty] at found
    split at found
    · exact .inr (Option.some.inj found).symm
    · exact .inl found

theorem Sound.put {node : Node} (sound : t.Sound) (nonempty : place ≠ [])
    (held : t.find? place.dropLast = some .directory) (other : t.find? place ≠ some .directory) :
    (t.put place node).Sound := by
  have keeps : KeepsDirectories t (t.put place node) := .put nonempty other
  intro q found there
  rw [find?_put t place q node nonempty] at there
  split at there
  · next same =>
    subst same
    exact keeps _ held
  · exact keeps _ (sound q found there)

/-! ### One directory -/

theorem walk_replicate_nil {k : Nat} {there : Place} :
    t.walk here (List.replicate k []) = .ok there ↔
      here = there ∧ (k ≠ 0 → t.find? here = some .directory) := by
  induction k with
  | zero => simp [walk]
  | succ k ih =>
    rw [List.replicate_succ, walk_cons_eq_ok, if_pos (.inl rfl), ih]
    simp only [ne_eq, Nat.succ_ne_zero, not_false_eq_true, forall_const]
    tauto

/-- A path leads to a directory that has a name exactly if a new directory would get this name, in
the same place. -/
theorem resolve_directory_iff {holder : Place} {name : Bytes}
    (new : t.resolveNew here p = .ok (some (holder, name)))
    (isDirectory : t.find? place = some .directory) :
    t.resolve here p = .ok place ↔ name.length ≤ longestName ∧ place = holder ++ [name] := by
  obtain ⟨before, stretches, notDots, held⟩ := resolveNew_eq_ok_some.mp new
  obtain ⟨k, split, full⟩ := splitSlash_of_dropWhile stretches
  obtain ⟨sane, walked, holds⟩ := follow_holder_eq_ok.mp held
  rw [not_or] at notDots
  rw [resolve, follow_eq_ok, split, walk_append_eq_ok]
  simp only [walk_cons_eq_ok, not_or.mpr ⟨full, notDots.1⟩, notDots.2, if_false,
    walk_replicate_nil]
  constructor
  · rintro ⟨-, mid', walked', -, short, rfl, -⟩
    rw [walked] at walked'
    obtain rfl := Except.ok.inj walked'
    exact ⟨short, rfl⟩
  · rintro ⟨short, rfl⟩
    exact ⟨sane, holder, walked, holds, short, rfl, fun _ => isDirectory⟩

theorem isDirectory_iff :
    t.isDirectory here p = true ↔
      ∃ place, t.resolve here p = .ok place ∧ t.find? place = some .directory := by
  rw [isDirectory]
  constructor
  · intro h
    split at h
    · next place located => exact ⟨place, locate_eq_ok.mp located⟩
    · cases h
  · rintro ⟨place, located⟩
    rw [locate_eq_ok.mpr located]

/-- A slash at the end of the path of a directory does not matter. -/
theorem isDirectory_iff_of_front (absolute : p.isAbsolute = true) {s : Bytes}
    (front : p.bytes = s ∨ p.bytes = s ++ [Ascii.slash]) :
    t.isDirectory here p = true ↔
      (p.bytes.contains Ascii.nul = false ∧ p.bytes ≠ [] ∧ p.bytes.length ≤ longestPath) ∧
        ∃ holder, t.walk [] (Path.splitSlash s) = .ok holder ∧
          t.find? holder = some .directory := by
  rw [isDirectory_iff]
  obtain front | front := front
  · simp only [resolve, follow_eq_ok, absolute, if_true, front, and_assoc, exists_and_left]
  · have split : Path.splitSlash p.bytes = Path.splitSlash s ++ [[]] := by
      rw [front, Path.splitSlash_append_slash]
      rfl
    simp only [resolve, split, follow_holder_eq_ok, absolute, if_true]
    constructor
    · rintro ⟨place, ⟨sane, walked, -⟩, found⟩
      exact ⟨sane, place, walked, found⟩
    · rintro ⟨sane, holder, walked, found⟩
      exact ⟨holder, ⟨sane, walked, found⟩, found⟩

/-- A file can be written under a name in a directory exactly if the directory is there and neither
the name nor the path is too long. -/
theorem exists_receives_join_iff (absolute : p.isAbsolute = true) {q : Path}
    (isName : Path.IsName q.bytes) (text : Ascii.nul ∉ q.bytes) :
    (∃ place, t.Receives here (p.join q) place) ↔
      t.isDirectory here p = true ∧ q.bytes.length ≤ longestName ∧
        (p.join q).bytes.length ≤ longestPath := by
  have nonempty : p.bytes ≠ [] := by
    intro empty
    rw [Path.isAbsolute, empty] at absolute
    cases absolute
  obtain ⟨s, front, joined⟩ := Path.exists_bytes_join nonempty
  have bytes : (p.join q).bytes = s ++ Ascii.slash :: q.bytes := joined q isName.whole
  have stretches : (Path.splitSlash (p.join q).bytes).reverse.dropWhile (· == [])
      = q.bytes :: (Path.splitSlash s).reverse := by
    rw [bytes, Path.splitSlash_append_slash, Path.splitSlash_of_whole isName.whole,
      List.reverse_concat, List.dropWhile_cons_of_neg (by simpa using isName.nonempty)]
  have noSlash : Ascii.nul ≠ Ascii.slash := by decide
  have clean : (p.join q).bytes.contains Ascii.nul = p.bytes.contains Ascii.nul := by
    obtain front | front := front <;> simp [bytes, front, text, noSlash]
  have longer : p.bytes.length ≤ (p.join q).bytes.length := by
    rw [bytes]
    obtain front | front := front <;> simp [front]
  have full : (p.join q).bytes ≠ [] := by simp [bytes]
  have fromRoot := Path.isAbsolute_join absolute q
  rw [isDirectory_iff_of_front absolute front]
  constructor
  · rintro ⟨place, ⟨holder, name, new, short, -⟩, -⟩
    obtain ⟨before, same, -, held⟩ := resolveNew_eq_ok_some.mp new
    obtain ⟨rfl, rfl⟩ := List.cons.inj (stretches.symm.trans same)
    rw [List.reverse_reverse, follow_holder_eq_ok, if_pos fromRoot] at held
    obtain ⟨⟨noNul, -, fits⟩, walked, found⟩ := held
    exact ⟨⟨⟨clean.symm.trans noNul, nonempty, Nat.le_trans longer fits⟩, holder, walked, found⟩,
      short, fits⟩
  · rintro ⟨⟨⟨noNul, -, -⟩, holder, walked, found⟩, short, fits⟩
    refine ⟨holder ++ [q.bytes], ⟨holder, q.bytes, ?_, short, rfl⟩, ?_⟩
    · refine resolveNew_eq_ok_some.mpr
        ⟨_, stretches, not_or.mpr ⟨isName.notHere, isName.notParent⟩, ?_⟩
      rw [List.reverse_reverse, follow_holder_eq_ok, if_pos fromRoot]
      exact ⟨⟨clean.trans noNul, full, fits⟩, walked, found⟩
    · obtain ⟨before, last, ends⟩ : ∃ before last, q.bytes = before ++ [last] :=
        ⟨_, _, (List.dropLast_concat_getLast isName.nonempty).symm⟩
      have other : last ≠ Ascii.slash := by
        rintro rfl
        exact isName.whole (by simp [ends])
      rw [namesDirectory, bytes, ends, ← List.cons_append, ← List.append_assoc,
        List.getLast?_concat]
      simpa using other

theorem isDirectory_mono (keeps : KeepsDirectories t t') (h : t.isDirectory here p = true) :
    t'.isDirectory here p = true := by
  rw [isDirectory_iff] at h ⊢
  obtain ⟨place, resolved, found⟩ := h
  exact ⟨place, resolve_mono keeps resolved, keeps place found⟩

/-- A directory is made under a name that is free, in a directory that is there. -/
theorem makeDirectory_eq_ok (h : t.makeDirectory here p = .ok t') :
    ∃ holder name, t.resolveNew here p = .ok (some (holder, name)) ∧ name.length ≤ longestName ∧
      t.find? (holder ++ [name]) = none ∧ t' = t.put (holder ++ [name]) .directory := by
  rw [makeDirectory] at h
  cases new : t.resolveNew here p with
  | error failure =>
    rw [new] at h
    cases h
  | ok target =>
    cases target with
    | none =>
      rw [new] at h
      cases h
    | some target =>
      obtain ⟨holder, name⟩ := target
      simp only [new, bind, Except.bind] at h
      split at h
      · cases h
      split at h
      · cases h
      · next fits absent =>
        exact ⟨holder, name, rfl, by omega, absent, (Except.ok.inj h).symm⟩

theorem makeDirectory_extends (h : t.makeDirectory here p = .ok t') : Extends t t' := by
  obtain ⟨holder, name, -, -, absent, rfl⟩ := makeDirectory_eq_ok h
  exact .put absent

theorem resolveNew_mono (keeps : KeepsDirectories t t') {holder : Place} {name : Bytes}
    (new : t.resolveNew here p = .ok (some (holder, name))) :
    t'.resolveNew here p = .ok (some (holder, name)) := by
  rw [resolveNew_eq_ok_some] at new ⊢
  obtain ⟨before, stretches, notDots, held⟩ := new
  exact ⟨before, stretches, notDots, follow_mono keeps held⟩

theorem isDirectory_of_makeDirectory (h : t.makeDirectory here p = .ok t') :
    t'.isDirectory here p = true := by
  have keeps := (makeDirectory_extends h).keepsDirectories
  obtain ⟨holder, name, new, short, absent, rfl⟩ := makeDirectory_eq_ok h
  have made := find?_put_self t .directory (List.append_ne_nil_of_right_ne_nil holder
    (List.cons_ne_nil name []))
  rw [isDirectory_iff]
  exact ⟨_, (resolve_directory_iff (resolveNew_mono keeps new) made).mpr ⟨short, rfl⟩, made⟩

/-- A path that leads somewhere has a name to give, or none, but no failure. -/
theorem resolveNew_of_resolve (h : t.resolve here p = .ok place) :
    ∃ target, t.resolveNew here p = .ok target := by
  have resolved : t.follow here p (Path.splitSlash p.bytes) = .ok place := h
  rw [resolveNew]
  cases stretches : (Path.splitSlash p.bytes).reverse.dropWhile (· == []) with
  | nil => exact ⟨none, by simp only [resolved]; rfl⟩
  | cons name before =>
    by_cases dots : name = Path.dot ∨ name = Path.dotDot
    · exact ⟨none, by simp only [resolved, if_pos dots]; rfl⟩
    · obtain ⟨k, split, full⟩ := splitSlash_of_dropWhile stretches
      obtain ⟨sane, walked⟩ := follow_eq_ok.mp resolved
      rw [split, walk_append_eq_ok] at walked
      obtain ⟨holder, walked, last⟩ := walked
      have isDirectory := (walk_cons_eq_ok.mp last).1
      have held : t.follow here p (before.reverse ++ [[]]) = .ok holder :=
        follow_holder_eq_ok.mpr ⟨sane, walked, isDirectory⟩
      exact ⟨some (holder, name), by simp only [held, if_neg dots]; rfl⟩

/-- A directory that is there is not made again. -/
theorem makeDirectory_of_isDirectory (h : t.isDirectory here p = true) :
    t.makeDirectory here p = .error .alreadyExists := by
  obtain ⟨place, resolved, found⟩ := isDirectory_iff.mp h
  obtain ⟨target, new⟩ := resolveNew_of_resolve resolved
  cases target with
  | none => simp only [makeDirectory, new, bind, Except.bind]
  | some target =>
    obtain ⟨holder, name⟩ := target
    obtain ⟨short, rfl⟩ := (resolve_directory_iff new found).mp resolved
    have fits : ¬ longestName < name.length := by omega
    simp only [makeDirectory, new, bind, Except.bind, fits, if_false, found]

/-! ### Directories and those above them -/

/-- The directory is made, or was there. -/
def Settles (here : Place) (p : Path) (t t' : FileTree) : Prop :=
  t.makeDirectory here p = .ok t' ∨ t.isDirectory here p = true ∧ t = t'

/-- A path is settled at once, or after its parent was made. -/
theorem makeDirectories_succ_eq_ok {fuel : Nat}
    (h : t.makeDirectories here (fuel + 1) p = .ok t') :
    p.components.isEmpty = true ∧ t = t' ∨ Settles here p t t' ∨
      ∃ parent u, t.makeDirectories here fuel parent = .ok u ∧ Settles here p u t' := by
  have settles : ∀ {u : FileTree} {failure : SystemFailure},
      (if u.isDirectory here p then Except.ok u else .error failure) = .ok t' →
        Settles here p u t' := by
    intro u failure h
    split at h
    · next there => exact .inr ⟨there, Except.ok.inj h⟩
    · cases h
  rw [makeDirectories] at h
  split at h
  · next empty => exact .inl ⟨empty, Except.ok.inj h⟩
  split at h
  · next made =>
    obtain rfl := Except.ok.inj h
    exact .inr (.inl (.inl made))
  · split at h
    · cases h
    · next parent _ =>
      cases above : t.makeDirectories here fuel parent with
      | error failure =>
        rw [above] at h
        cases h
      | ok u =>
        simp only [above, bind, Except.bind] at h
        refine .inr (.inr ⟨parent, u, above, ?_⟩)
        split at h
        · next made =>
          obtain rfl := Except.ok.inj h
          exact .inl made
        · exact settles h
  · exact .inr (.inl (settles h))

/-- What every new directory does to the tree, all of them do. -/
theorem makeDirectories_induction {P : FileTree → FileTree → Prop} (refl : ∀ t, P t t)
    (trans : ∀ {t t' u}, P t t' → P t' u → P t u)
    (made : ∀ {t p t'}, t.makeDirectory here p = .ok t' → P t t') {fuel : Nat}
    (h : t.makeDirectories here fuel p = .ok t') : P t t' := by
  have settled : ∀ {t t' p}, Settles here p t t' → P t t' := by
    rintro t t' p (new | ⟨-, rfl⟩)
    · exact made new
    · exact refl t
  induction fuel generalizing t t' p with
  | zero =>
    obtain rfl := Except.ok.inj h
    exact refl t
  | succ fuel ih =>
    obtain ⟨-, rfl⟩ | direct | ⟨parent, u, above, last⟩ := makeDirectories_succ_eq_ok h
    · exact refl t
    · exact settled direct
    · exact trans (ih above) (settled last)

theorem makeAllDirectories_extends (h : t.makeAllDirectories here p = .ok t') : Extends t t' :=
  makeDirectories_induction .refl .trans makeDirectory_extends h

theorem makeAllDirectories_sound (sound : t.Sound) (h : t.makeAllDirectories here p = .ok t') :
    t'.Sound := by
  refine makeDirectories_induction (P := fun t t' => t.Sound → t'.Sound) (fun _ => id)
    (fun first second sound => second (first sound)) ?_ h sound
  intro t p t' made sound
  obtain ⟨holder, name, new, -, absent, rfl⟩ := makeDirectory_eq_ok made
  have held : t.find? (holder ++ [name]).dropLast = some .directory := by
    rw [List.dropLast_concat]
    exact find?_holder new
  exact sound.put (List.append_ne_nil_of_right_ne_nil holder (List.cons_ne_nil name [])) held
    (by simp [absent])

/-- The directory is there afterwards, unless the path names nothing at all. -/
theorem isDirectory_of_makeAllDirectories (named : p.components.isEmpty = false)
    (h : t.makeAllDirectories here p = .ok t') : t'.isDirectory here p = true := by
  have settled : ∀ {t}, Settles here p t t' → t'.isDirectory here p = true := by
    rintro t (made | ⟨there, rfl⟩)
    · exact isDirectory_of_makeDirectory made
    · exact there
  obtain ⟨empty, -⟩ | direct | ⟨parent, u, -, last⟩ := makeDirectories_succ_eq_ok h
  · rw [named] at empty
    cases empty
  · exact settled direct
  · exact settled last

theorem makeAllDirectories_of_isDirectory (h : t.isDirectory here p = true) :
    t.makeAllDirectories here p = .ok t := by
  rw [makeAllDirectories, makeDirectories, makeDirectory_of_isDirectory h]
  simp [h]

/-- Directories that have been made need not be made again, as long as they stay. -/
theorem makeAllDirectories_again (h : t.makeAllDirectories here p = .ok t')
    (keeps : KeepsDirectories t' u) : u.makeAllDirectories here p = .ok u := by
  by_cases named : p.components.isEmpty = true
  · rw [makeAllDirectories, makeDirectories, if_pos named]
  · have there := isDirectory_of_makeAllDirectories (Bool.eq_false_iff.mpr named) h
    exact makeAllDirectories_of_isDirectory (isDirectory_mono keeps there)

end TargetQuery.FileTree
