import TargetQuery.Proofs.TargetInfo.Schema

/-!
# Where strings are text

The reader of target information never looks at the strings of values that it skips. Everywhere
else strings are text: in the names of the records, and in the values of their fields.
-/

namespace TargetQuery

open Json

namespace Json

/-- All strings are text, names too. -/
inductive Tree.Strict : Tree → Prop
  | null : Strict .null
  | bool (b : Bool) : Strict (.bool b)
  | number (token : Bytes) : Strict (.number token)
  | text (s : String) : Strict (.text (some s))
  | list {items : List Tree} : (∀ t ∈ items, Strict t) → Strict (.list items)
  | object {members : MemberList} : members.named = true → (∀ m ∈ members, Strict m.2) →
      Strict (.object members)

/-- In a record with the given fields all names are text, and every field holds to its own rule. The
values under other names are free. -/
def Tree.StrictRecord (fields : List (String × (Tree → Prop))) : Tree → Prop
  | .object members => MemberList.named members = true ∧
      ∀ field ∈ fields, ∀ t ∈ MemberList.under field.1 members, field.2 t
  | .list items => items.length ≤ fields.length ∧ ∀ x ∈ items.zip fields, x.2.2 x.1
  | t => t.Strict

theorem Tree.strictRecord_nil (fields : List (String × (Tree → Prop))) :
    Tree.StrictRecord fields (.list []) := by
  simp [Tree.StrictRecord]

theorem Tree.strictRecord_cons {name : String} {rule : Tree → Prop}
    {fields : List (String × (Tree → Prop))} {t : Tree} {items : List Tree} (first : rule t)
    (others : Tree.StrictRecord fields (.list items)) :
    Tree.StrictRecord ((name, rule) :: fields) (.list (t :: items)) := by
  obtain ⟨short, rules⟩ := others
  refine ⟨by simpa using short, ?_⟩
  rw [List.zip_cons_cons, List.forall_mem_cons]
  exact ⟨first, rules⟩

theorem Tree.strict_of_text? {t : Tree} {s : String} (h : t.text? = some s) : t.Strict := by
  obtain rfl := Tree.text?_eq_some.mp h
  exact .text s

theorem Tree.strict_of_bool? {t : Tree} {b : Bool} (h : t.bool? = some b) : t.Strict := by
  cases t with
  | bool b => exact .bool b
  | _ => cases h

theorem strict_of_mapM {α : Type} {meaning : Tree → Option α} {rule : Tree → Prop}
    (strict : ∀ {t x}, meaning t = some x → rule t) {items : List Tree} {xs : List α}
    (h : items.mapM meaning = some xs) : ∀ t ∈ items, rule t := by
  induction items generalizing xs with
  | nil => exact List.forall_mem_nil _
  | cons t items ih =>
    rw [List.mapM_cons] at h
    obtain ⟨x, hx, h⟩ := Option.bind_eq_some_iff.mp h
    obtain ⟨ys, hys, _⟩ := Option.bind_eq_some_iff.mp h
    exact List.forall_mem_cons.mpr ⟨strict hx, ih hys⟩

theorem Tree.strict_of_list? {α : Type} {meaning : Tree → Option α}
    (strict : ∀ {t x}, meaning t = some x → t.Strict) {t : Tree} {xs : List α}
    (h : t.list? meaning = some xs) : t.Strict := by
  cases t with
  | list items => exact .list (strict_of_mapM strict h)
  | _ => cases h

theorem Tree.strict_of_nullable? {α : Type} {meaning : Tree → Option α} {rule : Tree → Prop}
    (null : rule .null) (strict : ∀ {t x}, meaning t = some x → rule t) {t : Tree} {x : Option α}
    (h : t.nullable? meaning = some x) : rule t := by
  by_cases e : t = .null
  · rw [e]
    exact null
  · rw [Tree.nullable?_of_ne e] at h
    obtain ⟨y, hy, _⟩ := Option.map_eq_some_iff.mp h
    exact strict hy

namespace MemberList

variable {α : Type} {meaning : Tree → Option α} {rule : Tree → Prop} {members : MemberList}
  {name : String}

theorem forall_under_of_once? (strict : ∀ {t x}, meaning t = some x → rule t) {x : α}
    (h : members.once? name meaning = some x) : ∀ t ∈ members.under name, rule t := by
  rw [once?] at h
  split at h
  · next t e =>
    rw [e, List.forall_mem_singleton]
    exact strict h
  · cases h

theorem forall_under_of_atMostOnce? (strict : ∀ {t x}, meaning t = some x → rule t) {x : Option α}
    (h : members.atMostOnce? name meaning = some x) : ∀ t ∈ members.under name, rule t := by
  rw [atMostOnce?] at h
  split at h
  · next e =>
    rw [e]
    exact List.forall_mem_nil _
  · next t e =>
    rw [e, List.forall_mem_singleton]
    obtain ⟨y, hy, _⟩ := Option.map_eq_some_iff.mp h
    exact strict hy
  · cases h

end MemberList

end Json

theorem Triple.strict_of_ofTree? {t : Tree} {x : Triple} (h : Triple.ofTree? t = some x) :
    t.Strict := by
  obtain ⟨s, hs, _⟩ := Option.map_eq_some_iff.mp h
  exact Tree.strict_of_text? hs

namespace Target

def Strict : Tree → Prop := Tree.StrictRecord
  [("triple", Tree.Strict), ("unversionedTriple", Tree.Strict), ("moduleTriple", Tree.Strict),
   ("librariesRequireRPath", Tree.Strict)]

theorem strict_of_ofTree? {t : Tree} {x : Target} (h : ofTree? t = some x) : Strict t := by
  cases t with
  | object members =>
    obtain ⟨named, h⟩ := guard_bind_eq_some h
    simp only [Option.bind_eq_bind, Option.bind_eq_some_iff] at h
    obtain ⟨a, ha, b, hb, c, hc, d, hd, _⟩ := h
    refine ⟨named, ?_⟩
    simp only [List.forall_mem_cons]
    exact ⟨MemberList.forall_under_of_once? Triple.strict_of_ofTree? ha,
      MemberList.forall_under_of_once? Triple.strict_of_ofTree? hb,
      MemberList.forall_under_of_once? Triple.strict_of_ofTree? hc,
      MemberList.forall_under_of_once? Tree.strict_of_bool? hd, List.forall_mem_nil _⟩
  | list items =>
    rw [ofTree?.eq_def] at h
    split at h
    · next e => cases e
    · next a b c d e =>
      obtain rfl := Tree.list.inj e
      simp only [Option.bind_eq_bind, Option.bind_eq_some_iff] at h
      obtain ⟨_, ha, _, hb, _, hc, _, hd, _⟩ := h
      exact Tree.strictRecord_cons (Triple.strict_of_ofTree? ha) <|
        Tree.strictRecord_cons (Triple.strict_of_ofTree? hb) <|
        Tree.strictRecord_cons (Triple.strict_of_ofTree? hc) <|
        Tree.strictRecord_cons (Tree.strict_of_bool? hd) <| Tree.strictRecord_nil _
    · cases h
  | _ => cases h

end Target

namespace RuntimePaths

def Strict : Tree → Prop := Tree.StrictRecord
  [("runtimeLibraryPaths", Tree.Strict), ("runtimeLibraryImportPaths", Tree.Strict),
   ("runtimeResourcePath", Tree.Strict)]

theorem strict_of_texts? {t : Tree} {xs : List String} (h : texts? t = some xs) : t.Strict :=
  Tree.strict_of_list? Tree.strict_of_text? h

theorem strict_of_ofTree? {t : Tree} {x : RuntimePaths} (h : ofTree? t = some x) : Strict t := by
  cases t with
  | object members =>
    obtain ⟨named, h⟩ := guard_bind_eq_some h
    simp only [Option.bind_eq_bind, Option.bind_eq_some_iff] at h
    obtain ⟨a, ha, b, hb, c, hc, _⟩ := h
    refine ⟨named, ?_⟩
    simp only [List.forall_mem_cons]
    exact ⟨MemberList.forall_under_of_once? strict_of_texts? ha,
      MemberList.forall_under_of_once? strict_of_texts? hb,
      MemberList.forall_under_of_once? Tree.strict_of_text? hc, List.forall_mem_nil _⟩
  | list items =>
    rw [ofTree?.eq_def] at h
    split at h
    · next e => cases e
    · next a b c e =>
      obtain rfl := Tree.list.inj e
      simp only [Option.bind_eq_bind, Option.bind_eq_some_iff] at h
      obtain ⟨_, ha, _, hb, _, hc, _⟩ := h
      exact Tree.strictRecord_cons (strict_of_texts? ha) <|
        Tree.strictRecord_cons (strict_of_texts? hb) <|
        Tree.strictRecord_cons (Tree.strict_of_text? hc) <| Tree.strictRecord_nil _
    · cases h
  | _ => cases h

end RuntimePaths

namespace TargetInfo

/-- The strings of an answer are text, those of its records too. -/
def Strict : Tree → Prop := Tree.StrictRecord
  [("target", Target.Strict), ("targetVariant", Target.Strict), ("paths", RuntimePaths.Strict)]

theorem strict_of_ofTree? {t : Tree} {x : TargetInfo} (h : ofTree? t = some x) : Strict t := by
  have variant : ∀ {t : Tree} {x}, t.nullable? Target.ofTree? = some x → Target.Strict t :=
    Tree.strict_of_nullable? .null Target.strict_of_ofTree?
  have paths : ∀ {t : Tree} {x}, t.nullable? RuntimePaths.ofTree? = some x →
      RuntimePaths.Strict t :=
    Tree.strict_of_nullable? .null RuntimePaths.strict_of_ofTree?
  cases t with
  | object members =>
    obtain ⟨named, h⟩ := guard_bind_eq_some h
    simp only [Option.bind_eq_bind, Option.bind_eq_some_iff] at h
    obtain ⟨a, ha, b, hb, c, hc, _⟩ := h
    refine ⟨named, ?_⟩
    simp only [List.forall_mem_cons]
    exact ⟨MemberList.forall_under_of_once? Target.strict_of_ofTree? ha,
      MemberList.forall_under_of_atMostOnce? variant hb,
      MemberList.forall_under_of_atMostOnce? paths hc, List.forall_mem_nil _⟩
  | list items =>
    rw [ofTree?.eq_def] at h
    split at h
    · next e => cases e
    · next a e =>
      obtain rfl := Tree.list.inj e
      simp only [Option.bind_eq_bind, Option.bind_eq_some_iff] at h
      obtain ⟨_, ha, _⟩ := h
      exact Tree.strictRecord_cons (Target.strict_of_ofTree? ha) <| Tree.strictRecord_nil _
    · next a b e =>
      obtain rfl := Tree.list.inj e
      simp only [Option.bind_eq_bind, Option.bind_eq_some_iff] at h
      obtain ⟨_, ha, _, hb, _⟩ := h
      exact Tree.strictRecord_cons (Target.strict_of_ofTree? ha) <|
        Tree.strictRecord_cons (variant hb) <| Tree.strictRecord_nil _
    · next a b c e =>
      obtain rfl := Tree.list.inj e
      simp only [Option.bind_eq_bind, Option.bind_eq_some_iff] at h
      obtain ⟨_, ha, _, hb, _, hc, _⟩ := h
      exact Tree.strictRecord_cons (Target.strict_of_ofTree? ha) <|
        Tree.strictRecord_cons (variant hb) <| Tree.strictRecord_cons (paths hc) <|
        Tree.strictRecord_nil _
    · cases h
  | _ => cases h

end TargetInfo

end TargetQuery
