import Mathlib.Data.List.Induction
import TargetQuery.Path
import TargetQuery.Proofs.Text.Utf8

/-!
# Paths

Bytes without a slash are one stretch, and a slash parts the stretches before it from those behind
it. So the stretches of a path that is put together from names are those names. Whether a path is
text is another matter: slashes have no part in it.
-/

namespace TargetQuery

namespace Bytes

variable {separator : UInt8}

theorem cut_cons_same (s : Bytes) : cut separator (separator :: s) = [] :: cut separator s := by
  simp [cut]

theorem cut_ne_nil (s : Bytes) : cut separator s ≠ [] := by
  cases s with
  | nil => simp [cut]
  | cons b s =>
    rw [cut]
    split
    · simp
    · split <;> simp

/-- A byte that does not separate belongs to the first stretch. -/
theorem cut_cons_other {b : UInt8} (other : b ≠ separator) {s first : Bytes} {more : List Bytes}
    (h : cut separator s = first :: more) :
    cut separator (b :: s) = (b :: first) :: more := by
  simp [cut, other, h]

theorem cut_of_not_mem {s : Bytes} (h : separator ∉ s) : cut separator s = [s] := by
  induction s with
  | nil => rfl
  | cons b s ih =>
    rw [List.mem_cons, not_or] at h
    exact cut_cons_other (Ne.symm h.1) (ih h.2)

theorem cut_append_cons (s more : Bytes) :
    cut separator (s ++ separator :: more) = cut separator s ++ cut separator more := by
  induction s with
  | nil => exact cut_cons_same more
  | cons b s ih =>
    by_cases same : b = separator
    · subst same
      rw [List.cons_append, cut_cons_same, cut_cons_same, ih, List.cons_append]
    · obtain ⟨first, others, h⟩ := List.exists_cons_of_ne_nil (cut_ne_nil s)
      rw [h, List.cons_append] at ih
      rw [List.cons_append, cut_cons_other same ih, cut_cons_other same h, List.cons_append]

/-- The last stretch is empty only if nothing stands behind the last separator. -/
theorem getLast_cut_ne_nil {s : Bytes} (nonempty : s ≠ []) (open_ : s.getLast? ≠ some separator) :
    (cut separator s).getLast? ≠ some [] := by
  induction s with
  | nil => exact absurd rfl nonempty
  | cons b s ih =>
    cases s with
    | nil =>
      have other : b ≠ separator := by simpa using open_
      rw [cut_cons_other other (show cut separator [] = [] :: [] from rfl)]
      simp
    | cons c s =>
      have last := ih (List.cons_ne_nil c s) (by simpa using open_)
      obtain ⟨first, others, h⟩ :=
        List.exists_cons_of_ne_nil (cut_ne_nil (c :: s))
      rw [h] at last
      by_cases same : b = separator
      · rw [same, cut_cons_same, h, List.getLast?_cons_cons]
        exact last
      · rw [cut_cons_other same h]
        cases others with
        | nil => simp
        | cons other others =>
          rw [List.getLast?_cons_cons] at last ⊢
          exact last

end Bytes

namespace Path

/-! ### Text -/

theorem bytes_ofString (s : String) : (ofString s).bytes = Utf8.encode s := rfl

def IsText (p : Path) : Prop := Utf8.isValid p.bytes = true

instance (p : Path) : Decidable p.IsText :=
  inferInstanceAs (Decidable (Utf8.isValid p.bytes = true))

theorem decode?_bytes_eq_some {p : Path} {s : String} :
    Utf8.decode? p.bytes = some s ↔ p = ofString s := by
  rw [Utf8.decode?_eq_some_iff]
  constructor
  · rintro h
    rw [ofString, ← h]
  · rintro rfl
    rfl

theorem isText_iff {p : Path} : p.IsText ↔ ∃ s, p = ofString s := by
  simp only [IsText, Utf8.isValid, Option.isSome_iff_exists, decode?_bytes_eq_some]

/-! ### Names -/

/-- What may be the name of a file or directory: some bytes, among them no slash. The two names that
every directory has, for itself and for its parent, are not meant. -/
structure IsName (name : Bytes) : Prop where
  nonempty : name ≠ []
  whole : Ascii.slash ∉ name
  notHere : name ≠ dot
  notParent : name ≠ dotDot

theorem splitSlash_append_slash (s more : Bytes) :
    splitSlash (s ++ Ascii.slash :: more) = splitSlash s ++ splitSlash more :=
  Bytes.cut_append_cons s more

theorem splitSlash_of_whole {s : Bytes} (whole : Ascii.slash ∉ s) : splitSlash s = [s] :=
  Bytes.cut_of_not_mem whole

/-- A path of names, each behind a slash, has these names for stretches. -/
theorem splitSlash_names {names : List Bytes} (whole : ∀ name ∈ names, Ascii.slash ∉ name) :
    splitSlash (names.flatMap fun name => Ascii.slash :: name) = [] :: names := by
  induction names using List.reverseRecOn with
  | nil => rfl
  | append_singleton names name ih =>
    rw [List.forall_mem_append, List.forall_mem_singleton] at whole
    rw [List.flatMap_append, List.flatMap_singleton, splitSlash_append_slash, ih whole.1,
      splitSlash_of_whole whole.2, List.cons_append]

theorem isAbsolute_of_whole {q : Path} (whole : Ascii.slash ∉ q.bytes) : q.isAbsolute = false := by
  cases h : q.bytes with
  | nil => simp [isAbsolute, h]
  | cons b s =>
    rw [h, List.mem_cons, not_or] at whole
    simpa [isAbsolute, h] using Ne.symm whole.1

/-- A name is joined to a path behind one slash, whether the path ends with it or not. -/
theorem exists_bytes_join {p : Path} (nonempty : p.bytes ≠ []) :
    ∃ s, (p.bytes = s ∨ p.bytes = s ++ [Ascii.slash]) ∧
      ∀ q : Path, Ascii.slash ∉ q.bytes → (p.join q).bytes = s ++ Ascii.slash :: q.bytes := by
  obtain ⟨s, last, bytes⟩ : ∃ s last, p.bytes = s ++ [last] :=
    ⟨_, _, (List.dropLast_concat_getLast nonempty).symm⟩
  by_cases slash : last = Ascii.slash
  · subst slash
    refine ⟨s, .inr bytes, fun q whole => ?_⟩
    simp [join, isAbsolute_of_whole whole, bytes]
  · refine ⟨p.bytes, .inl rfl, fun q whole => ?_⟩
    simp [join, isAbsolute_of_whole whole, bytes, slash]

/-- A path is joined to another one behind stretches that do not depend on it. -/
theorem exists_splitSlash_join (p : Path) :
    ∃ before, ∀ q : Path, Ascii.slash ∉ q.bytes →
      splitSlash (p.join q).bytes = before ++ [q.bytes] := by
  by_cases empty : p.bytes = []
  · refine ⟨[], fun q whole => ?_⟩
    simp [join, isAbsolute_of_whole whole, empty, splitSlash_of_whole whole]
  · obtain ⟨s, -, joined⟩ := exists_bytes_join empty
    refine ⟨splitSlash s, fun q whole => ?_⟩
    rw [joined q whole, splitSlash_append_slash, splitSlash_of_whole whole]

/-- A path behind an absolute one is absolute. -/
theorem isAbsolute_join {p : Path} (h : p.isAbsolute = true) (q : Path) :
    (p.join q).isAbsolute = true := by
  rw [join]
  split
  · next absolute => exact absolute
  · obtain ⟨b, s, bytes⟩ : ∃ b s, p.bytes = b :: s := by
      cases hp : p.bytes with
      | nil => simp [isAbsolute, hp] at h
      | cons b s => exact ⟨b, s, rfl⟩
    rw [isAbsolute, bytes, List.head?_cons] at h
    split
    · next empty => simp [bytes] at empty
    split
    · rw [isAbsolute, bytes]
      exact h
    · rw [isAbsolute, bytes]
      exact h

end Path

end TargetQuery
