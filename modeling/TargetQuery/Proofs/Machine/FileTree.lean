import TargetQuery.Machine.FileTree
import TargetQuery.Proofs.Text.Paths

/-!
# Reading what was written

What stands at a place after the tree was changed at another one or at this one; which place a path
leads to, and that it still leads there when directories are kept. A file that is written through a
path is read through the same path.
-/

namespace TargetQuery.FileTree

variable {t t' : FileTree} {here place : Place} {p : Path}

/-! ### Places -/

theorem lookup_map_replace (entries : List (Place × Node)) (place q : Place) (node : Node) :
    (entries.map fun e => if e.1 == place then (place, node) else e).lookup q
      = if q = place then (entries.lookup q).map fun _ => node else entries.lookup q := by
  induction entries with
  | nil => simp
  | cons e entries ih =>
    obtain ⟨at_, old⟩ := e
    by_cases same : at_ = place
    · subst same
      by_cases here : q = at_
      · subst here
        simp
      · simp only [List.map_cons, beq_self_eq_true, if_true, List.lookup_cons,
          beq_eq_false_iff_ne.mpr here, ih, here, if_false]
    · by_cases here : q = at_
      · subst here
        simp [same]
      · simp only [List.map_cons, beq_eq_false_iff_ne.mpr same, Bool.false_eq_true, if_false,
          List.lookup_cons, beq_eq_false_iff_ne.mpr here, ih]

theorem lookup_eq_none_iff_not_any {entries : List (Place × Node)} {place : Place} :
    entries.lookup place = none ↔ entries.any (·.1 == place) = false := by
  rw [List.lookup_eq_none_iff, List.any_eq_false]
  refine forall₂_congr fun e _ => ?_
  simp [eq_comm (a := place)]

/-- The root is always there; elsewhere a place holds what was put there last. -/
theorem find?_put (t : FileTree) (place q : Place) (node : Node) (nonempty : place ≠ []) :
    (t.put place node).find? q = if q = place then some node else t.find? q := by
  by_cases root : q = []
  · subst root
    simp [find?, nonempty.symm]
  rw [find?, if_neg root, put]
  split
  · next present =>
    rw [lookup_map_replace]
    by_cases same : q = place
    · subst same
      cases found : t.entries.lookup q with
      | none => simp [lookup_eq_none_iff_not_any.mp found] at present
      | some old => simp
    · simp [same, find?, root]
  · next absent =>
    have none := lookup_eq_none_iff_not_any.mpr (Bool.eq_false_iff.mpr absent)
    rw [List.lookup_append]
    by_cases same : q = place
    · subst same
      simp [none]
    · simp [same, find?, root, List.lookup_cons, beq_eq_false_iff_ne.mpr same]

theorem find?_put_self {place : Place} (t : FileTree) (node : Node) (nonempty : place ≠ []) :
    (t.put place node).find? place = some node := by
  rw [find?_put t place place node nonempty, if_pos rfl]

theorem lookup_filter_other (entries : List (Place × Node)) (place q : Place) :
    (entries.filter fun e => e.1 != place).lookup q
      = if q = place then none else entries.lookup q := by
  induction entries with
  | nil => simp
  | cons e entries ih =>
    obtain ⟨at_, node⟩ := e
    by_cases same : at_ = place
    · subst same
      rw [List.filter_cons_of_neg (by simp), ih, List.lookup_cons]
      by_cases here : q = at_
      · rw [if_pos here, if_pos here]
      · simp only [if_neg here, beq_eq_false_iff_ne.mpr here]
    · rw [List.filter_cons_of_pos (by simpa using same), List.lookup_cons, List.lookup_cons, ih]
      by_cases here : q = at_
      · subst here
        simp [same]
      · simp only [beq_eq_false_iff_ne.mpr here]

/-- The root is always there; elsewhere nothing stands at a place that was erased. -/
theorem find?_erase (t : FileTree) (place q : Place) (nonempty : place ≠ []) :
    (t.erase place).find? q = if q = place then none else t.find? q := by
  by_cases root : q = []
  · subst root
    simp [find?, nonempty.symm]
  · rw [find?, if_neg root, erase, lookup_filter_other, find?, if_neg root]

/-! ### Walks -/

/-- Every directory of the one tree is a directory of the other. -/
def KeepsDirectories (t t' : FileTree) : Prop :=
  ∀ place, t.find? place = some .directory → t'.find? place = some .directory

theorem KeepsDirectories.put {place : Place} {node : Node} (nonempty : place ≠ [])
    (other : t.find? place ≠ some .directory) : KeepsDirectories t (t.put place node) := by
  intro q isDirectory
  have ne : q ≠ place := by
    rintro rfl
    exact other isDirectory
  rw [find?_put t place q node nonempty, if_neg ne, isDirectory]

/-- A walk takes one stretch after the other, and passes only directories. -/
theorem walk_cons_eq_ok {stretch : Bytes} {more : List Bytes} {there : Place} :
    t.walk here (stretch :: more) = .ok there ↔ t.find? here = some .directory ∧
      if stretch = [] ∨ stretch = Path.dot then t.walk here more = .ok there
      else if stretch = Path.dotDot then t.walk here.dropLast more = .ok there
      else stretch.length ≤ longestName ∧ t.walk (here ++ [stretch]) more = .ok there := by
  rw [walk]
  cases found : t.find? here with
  | none => simp
  | some node =>
    cases node with
    | file mode content => simp
    | device full => simp
    | directory =>
      simp only [true_and]
      split
      · rfl
      split
      · rfl
      split
      · simp; omega
      · simp; omega

/-- Where directories stay, walks lead to the same places. -/
theorem walk_mono (keeps : KeepsDirectories t t') {stretches : List Bytes} {there : Place}
    (h : t.walk here stretches = .ok there) : t'.walk here stretches = .ok there := by
  induction stretches generalizing here with
  | nil => exact h
  | cons stretch more ih =>
    rw [walk_cons_eq_ok] at h ⊢
    obtain ⟨isDirectory, h⟩ := h
    refine ⟨keeps here isDirectory, ?_⟩
    split
    · next stays =>
      rw [if_pos stays] at h
      exact ih h
    split
    · next descends rises =>
      rw [if_neg descends, if_pos rises] at h
      exact ih h
    · next descends named =>
      rw [if_neg descends, if_neg named] at h
      exact ⟨h.1, ih h.2⟩

/-- A name leads from a directory to the place of that name in it. -/
theorem walk_name_eq_ok {name : Bytes} (isName : Path.IsName name) {there : Place} :
    t.walk here [name] = .ok there ↔
      t.find? here = some .directory ∧ name.length ≤ longestName ∧ here ++ [name] = there := by
  rw [walk_cons_eq_ok, if_neg (not_or.mpr ⟨isName.nonempty, isName.notHere⟩),
    if_neg isName.notParent, walk, Except.ok.injEq]

theorem walk_append_eq_ok {before behind : List Bytes} {there : Place} :
    t.walk here (before ++ behind) = .ok there
      ↔ ∃ mid, t.walk here before = .ok mid ∧ t.walk mid behind = .ok there := by
  induction before generalizing here with
  | nil => simp [walk]
  | cons stretch before ih =>
    simp only [List.cons_append, walk_cons_eq_ok, ih]
    split
    · simp [and_assoc]
    split
    · simp [and_assoc]
    · simp [and_assoc]

theorem follow_eq_ok {stretches : List Bytes} {there : Place} :
    t.follow here p stretches = .ok there ↔
      (p.bytes.contains Ascii.nul = false ∧ p.bytes ≠ [] ∧ p.bytes.length ≤ longestPath) ∧
        t.walk (if p.isAbsolute then [] else here) stretches = .ok there := by
  rw [follow]
  split
  · next nul => simp only [nul, reduceCtorEq, false_and]
  split
  · next empty => simp [empty]
  split
  · next long => simp; omega
  · next nul nonempty short => simp_all

/-- With an empty stretch at its end, a path leads to directories only. -/
theorem follow_holder_eq_ok {before : List Bytes} {holder : Place} :
    t.follow here p (before ++ [[]]) = .ok holder ↔
      (p.bytes.contains Ascii.nul = false ∧ p.bytes ≠ [] ∧ p.bytes.length ≤ longestPath) ∧
        t.walk (if p.isAbsolute then [] else here) before = .ok holder ∧
          t.find? holder = some .directory := by
  rw [follow_eq_ok, walk_append_eq_ok]
  have stays : ∀ mid, t.walk mid [[]] = .ok holder ↔
      t.find? mid = some .directory ∧ mid = holder := by
    intro mid
    rw [walk_cons_eq_ok, if_pos (.inl rfl), walk, Except.ok.injEq]
  simp only [stays]
  refine and_congr_right fun _ => ?_
  constructor
  · rintro ⟨mid, walked, isDirectory, rfl⟩
    exact ⟨walked, isDirectory⟩
  · rintro ⟨walked, isDirectory⟩
    exact ⟨holder, walked, isDirectory, rfl⟩

theorem follow_mono (keeps : KeepsDirectories t t') {stretches : List Bytes} {there : Place}
    (h : t.follow here p stretches = .ok there) : t'.follow here p stretches = .ok there := by
  rw [follow_eq_ok] at h ⊢
  exact ⟨h.1, walk_mono keeps h.2⟩

theorem resolve_mono (keeps : KeepsDirectories t t') (h : t.resolve here p = .ok place) :
    t'.resolve here p = .ok place :=
  follow_mono keeps h

/-! ### Where a new file goes -/

/-- The last name of a path, and the directory to which what stands before it leads. -/
theorem resolveNew_eq_ok_some {holder : Place} {name : Bytes} :
    t.resolveNew here p = .ok (some (holder, name)) ↔
      ∃ before, (Path.splitSlash p.bytes).reverse.dropWhile (· == []) = name :: before ∧
        ¬ (name = Path.dot ∨ name = Path.dotDot) ∧
          t.follow here p (before.reverse ++ [[]]) = .ok holder := by
  have unnamed : ∀ r : Except SystemFailure Place,
      r.map (fun _ => (none : Option (Place × Bytes))) ≠ .ok (some (holder, name)) := by
    intro r
    cases r <;> simp [Except.map]
  simp only [resolveNew]
  cases (Path.splitSlash p.bytes).reverse.dropWhile (· == []) with
  | nil => simpa using unnamed _
  | cons last before =>
    simp only [List.cons.injEq]
    split
    · next dots =>
      refine iff_of_false (unnamed _) ?_
      rintro ⟨_, ⟨rfl, rfl⟩, named, _⟩
      exact named dots
    · next named =>
      cases held : t.follow here p (before.reverse ++ [[]]) with
      | error failure =>
        refine iff_of_false (fun h => by cases h) ?_
        rintro ⟨_, ⟨rfl, rfl⟩, _, h⟩
        rw [held] at h
        cases h
      | ok place =>
        constructor
        · intro h
          obtain ⟨rfl, rfl⟩ := Prod.mk.inj (Option.some.inj (Except.ok.inj h))
          exact ⟨before, ⟨rfl, rfl⟩, named, held⟩
        · rintro ⟨_, ⟨rfl, rfl⟩, _, h⟩
          rw [held] at h
          obtain rfl := Except.ok.inj h
          rfl

theorem find?_holder {holder : Place} {name : Bytes}
    (new : t.resolveNew here p = .ok (some (holder, name))) :
    t.find? holder = some .directory := by
  obtain ⟨before, -, -, held⟩ := resolveNew_eq_ok_some.mp new
  exact (follow_holder_eq_ok.mp held).2.2

/-- A file that is written through the path goes to the place. -/
structure Receives (t : FileTree) (here : Place) (p : Path) (place : Place) : Prop where
  /-- The place is a name in a directory that is there. -/
  named : ∃ holder name, t.resolveNew here p = .ok (some (holder, name)) ∧
    name.length ≤ longestName ∧ place = holder ++ [name]
  notSlashed : namesDirectory p = false

theorem Receives.nonempty (h : t.Receives here p place) : place ≠ [] := by
  obtain ⟨holder, name, _, _, rfl⟩ := h.named
  exact List.append_ne_nil_of_right_ne_nil holder (List.cons_ne_nil name [])

theorem Receives.mono (keeps : KeepsDirectories t t') (h : t.Receives here p place) :
    t'.Receives here p place := by
  obtain ⟨holder, name, new, short, rfl⟩ := h.named
  refine ⟨⟨holder, name, ?_, short, rfl⟩, h.notSlashed⟩
  rw [resolveNew_eq_ok_some] at new ⊢
  obtain ⟨before, stretches, notDots, held⟩ := new
  exact ⟨before, stretches, notDots, follow_mono keeps held⟩

theorem eq_replicate_append_of_dropWhile {stretches before : List Bytes} {name : Bytes}
    (h : stretches.dropWhile (· == []) = name :: before) :
    ∃ k, stretches = List.replicate k [] ++ name :: before ∧ name ≠ [] := by
  induction stretches with
  | nil => cases h
  | cons s stretches ih =>
    by_cases empty : s = []
    · subst empty
      rw [List.dropWhile_cons_of_pos (by simp)] at h
      obtain ⟨k, rfl, full⟩ := ih h
      exact ⟨k + 1, rfl, full⟩
    · rw [List.dropWhile_cons_of_neg (by simpa using empty)] at h
      obtain ⟨rfl, rfl⟩ := List.cons.inj h
      exact ⟨0, rfl, empty⟩

/-- The last name of a path, with what comes before it and how many slashes come behind it. -/
theorem splitSlash_of_dropWhile {before : List Bytes} {name : Bytes}
    (h : (Path.splitSlash p.bytes).reverse.dropWhile (· == []) = name :: before) :
    ∃ k, Path.splitSlash p.bytes = before.reverse ++ name :: List.replicate k [] ∧ name ≠ [] := by
  obtain ⟨k, stretches, full⟩ := eq_replicate_append_of_dropWhile h
  refine ⟨k, ?_, full⟩
  rw [← List.reverse_reverse (Path.splitSlash p.bytes), stretches]
  simp

/-- What is written through a path is found through the same path. -/
theorem Receives.resolve (h : t.Receives here p place) : t.resolve here p = .ok place := by
  obtain ⟨holder, name, new, short, rfl⟩ := h.named
  obtain ⟨before, stretches, notDots, held⟩ := resolveNew_eq_ok_some.mp new
  obtain ⟨sane, walked, isDirectory⟩ := follow_holder_eq_ok.mp held
  have open_ : p.bytes.getLast? ≠ some Ascii.slash := by
    have notSlashed := h.notSlashed
    simpa [namesDirectory] using notSlashed
  obtain ⟨k, split, full⟩ := splitSlash_of_dropWhile stretches
  obtain rfl : k = 0 := by
    have last := Bytes.getLast_cut_ne_nil sane.2.1 open_
    cases k with
    | zero => rfl
    | succ k =>
      rw [← Path.splitSlash, split, List.replicate_succ', ← List.cons_append, ← List.append_assoc,
        List.getLast?_concat] at last
      exact absurd rfl last
  rw [not_or] at notDots
  have isName : t.walk holder [name] = .ok (holder ++ [name]) := by
    rw [walk_cons_eq_ok, if_neg (not_or.mpr ⟨full, notDots.1⟩), if_neg notDots.2]
    exact ⟨isDirectory, short, rfl⟩
  refine follow_eq_ok.mpr ⟨sane, ?_⟩
  rw [split]
  exact walk_append_eq_ok.mpr ⟨holder, walked, isName⟩

theorem exists?_eq_false (h : t.Receives here p place) :
    t.exists? here p = false ↔ t.find? place = none := by
  rw [exists?, locate, h.resolve]
  cases found : t.find? place with
  | none => simp [bind, Except.bind, found]
  | some node => simp [bind, Except.bind, found]

theorem locate_eq_ok {node : Node} :
    t.locate here p = .ok (place, node) ↔
      t.resolve here p = .ok place ∧ t.find? place = some node := by
  rw [locate]
  cases hr : t.resolve here p with
  | error failure => simp [bind, Except.bind]
  | ok there =>
    cases hf : t.find? there with
    | none =>
      simp only [bind, Except.bind, hf, reduceCtorEq, false_iff, Except.ok.injEq]
      rintro ⟨rfl, found⟩
      rw [hf] at found
      cases found
    | some other =>
      simp only [bind, Except.bind, hf, Except.ok.injEq, Prod.mk.injEq]
      constructor
      · rintro ⟨rfl, rfl⟩
        exact ⟨rfl, hf⟩
      · rintro ⟨rfl, found⟩
        exact ⟨rfl, Option.some.inj (hf.symm.trans found)⟩

/-! ### Writing -/

/-- Writing to a place depends on what stands there. -/
theorem write_of_receives (h : t.Receives here p place) (mode : Nat) (content : Bytes) :
    t.write here p mode content = match t.find? place with
      | some .directory => .error .isADirectory
      | some (.file old _) =>
        if modeWrites old then .ok (t.put place (.file old content)) else .error .permissionDenied
      | some (.device full) => if full && content != [] then .error .noSpace else .ok t
      | none => .ok (t.put place (.file mode content)) := by
  obtain ⟨holder, name, new, short, rfl⟩ := h.named
  have fits : ¬ longestName < name.length := by omega
  cases found : t.find? (holder ++ [name]) with
  | none =>
    simp only [write, new, bind, Except.bind, h.notSlashed, Bool.false_eq_true, if_false, fits,
      found]
  | some node =>
    cases node <;>
      simp only [write, new, bind, Except.bind, h.notSlashed, Bool.false_eq_true, if_false, fits,
        found]

/-- Whatever can be written has a place that receives it. -/
theorem exists_receives_of_write {mode : Nat} {content : Bytes}
    (h : t.write here p mode content = .ok t') : ∃ place, t.Receives here p place := by
  rw [write] at h
  cases new : t.resolveNew here p with
  | error failure =>
    rw [new] at h
    cases h
  | ok target =>
    cases target with
    | none =>
      rw [new] at h
      cases h
    | some target =>
      obtain ⟨holder, name⟩ := target
      simp only [new, bind, Except.bind] at h
      split at h
      · cases h
      split at h
      · cases h
      · next notSlashed fits =>
        exact ⟨holder ++ [name], ⟨holder, name, new, by omega, rfl⟩, by simpa using notSlashed⟩

/-- Where there is no device, writing leaves the file, which keeps its mode if it was there before.
-/
theorem write_eq_ok {mode : Nat} {content : Bytes} (h : t.Receives here p place)
    (noDevice : ∀ full, t.find? place ≠ some (.device full))
    (written : t.write here p mode content = .ok t') :
    ∃ mode', t' = t.put place (.file mode' content) ∧ (t.find? place = none ∧ mode' = mode ∨
      ∃ old, t.find? place = some (.file mode' old) ∧ modeWrites mode' = true) := by
  rw [write_of_receives h] at written
  split at written
  · cases written
  · next old content' found =>
    split at written
    · next writes =>
      exact ⟨old, (Except.ok.inj written).symm, .inr ⟨content', found, writes⟩⟩
    · cases written
  · next full found => exact absurd found (noDevice full)
  · next absent => exact ⟨mode, (Except.ok.inj written).symm, .inl ⟨absent, rfl⟩⟩

/-- A file that was put where a path leads is read through that path. -/
theorem read_put {mode : Nat} {content : Bytes} (h : t.Receives here p place)
    (notDirectory : t.find? place ≠ some .directory) (readable : modeReads mode = true) :
    (t.put place (.file mode content)).read here p = .ok content := by
  have keeps : KeepsDirectories t (t.put place (.file mode content)) :=
    .put h.nonempty notDirectory
  have located := locate_eq_ok.mpr
    ⟨(h.mono keeps).resolve, find?_put_self t (.file mode content) h.nonempty⟩
  simp only [read, located, bind, Except.bind, readable, if_true]

/-- A file can be kept under the path: the path leads to a name in a directory, and what has this
name, if anything, is a file that may be read and changed. -/
structure Keeps (t : FileTree) (here : Place) (p : Path) : Prop where
  ordinary : ∃ place, t.Receives here p place ∧ ∀ node, t.find? place = some node →
    ∃ mode content, node = .file mode content ∧ modeReads mode = true ∧ modeWrites mode = true

/-- A file that can be kept is written, and then it holds what was written. -/
theorem Keeps.write (h : t.Keeps here p) (mode : Nat) (reads : modeReads mode = true)
    (writes : modeWrites mode = true) (content : Bytes) :
    ∃ t', t.write here p mode content = .ok t' ∧ t'.read here p = .ok content ∧
      t'.Keeps here p ∧ ∃ place mode', place ≠ [] ∧ t.find? place.dropLast = some .directory ∧
        t.find? place ≠ some .directory ∧ t' = t.put place (.file mode' content) := by
  obtain ⟨place, receives, ordinary⟩ := h.ordinary
  have kept : ∀ mode', modeReads mode' = true → modeWrites mode' = true →
      t.find? place ≠ some .directory →
        (t.put place (.file mode' content)).read here p = .ok content ∧
        (t.put place (.file mode' content)).Keeps here p := by
    intro mode' reads' writes' other
    refine ⟨read_put receives other reads', place,
      receives.mono (.put receives.nonempty other), fun node found => ?_⟩
    rw [find?_put_self t _ receives.nonempty] at found
    exact ⟨mode', content, (Option.some.inj found).symm, reads', writes'⟩
  have held : t.find? place.dropLast = some .directory := by
    obtain ⟨holder, name, new, -, rfl⟩ := receives.named
    rw [List.dropLast_concat]
    exact find?_holder new
  cases found : t.find? place with
  | none =>
    have other : t.find? place ≠ some .directory := by simp [found]
    obtain ⟨read, keeps⟩ := kept mode reads writes other
    refine ⟨_, ?_, read, keeps, place, mode, receives.nonempty, held, other, rfl⟩
    simp only [write_of_receives receives, found]
  | some node =>
    obtain ⟨old, content', rfl, reads', writes'⟩ := ordinary node found
    have other : t.find? place ≠ some .directory := by simp [found]
    obtain ⟨read, keeps⟩ := kept old reads' writes' other
    refine ⟨_, ?_, read, keeps, place, old, receives.nonempty, held, other, rfl⟩
    simp only [write_of_receives receives, found, writes', if_true]

end TargetQuery.FileTree
