import TargetQuery.Proofs.Json.Grammar

/-!
# What trees mean

A tree is taken for a truth value, a string, a list or an object. An object is asked for the values
under a name, all at once. Picking the members up one after the other, where a second one under the
same name is too much, comes to the same.
-/

namespace TargetQuery.Json

variable {α : Type}

/-! ### Values -/

/-- The meaning of a tree as a truth value. -/
def Tree.bool? : Tree → Option Bool
  | .bool b => some b
  | _ => none

def Tree.text? : Tree → Option String
  | .text s => s
  | _ => none

/-- The meaning of a tree as null or something else. -/
def Tree.nullable? (t : Tree) (meaning : Tree → Option α) : Option (Option α) :=
  match t with
  | .null => some none
  | t => some <$> meaning t

def Tree.list? (t : Tree) (meaning : Tree → Option α) : Option (List α) :=
  match t with
  | .list items => items.mapM meaning
  | _ => none

theorem Tree.text?_eq_some {t : Tree} {s : String} : t.text? = some s ↔ t = .text (some s) := by
  cases t <;> simp [Tree.text?]

theorem Tree.nullable?_of_ne {t : Tree} (h : t ≠ .null) (meaning : Tree → Option α) :
    t.nullable? meaning = some <$> meaning t := by
  cases t with
  | null => exact absurd rfl h
  | _ => rfl

/-! ### Members -/

/-- The members of an object as it is written. -/
abbrev MemberList := List (Option String × Tree)

/-! ### Checks -/

theorem guard_bind (b : Bool) (x : Option α) :
    (guard b >>= fun _ => x) = if b then x else none := by
  cases b <;> rfl

theorem guard_bind_eq_some {b : Bool} {x : Option α} {y : α}
    (h : (guard b >>= fun _ => x) = some y) : b = true ∧ x = some y := by
  cases b with
  | false => cases h
  | true => exact ⟨rfl, h⟩

namespace MemberList

/-- Every name is text. -/
def named (members : MemberList) : Bool := members.all fun m => m.1.isSome

/-- The values under a name, in their order. -/
def under (name : String) (members : MemberList) : List Tree :=
  members.filterMap fun m => if m.1 = some name then some m.2 else none

/-- The meaning of the only value under a name. -/
def once? (members : MemberList) (name : String) (meaning : Tree → Option α) : Option α :=
  match members.under name with
  | [t] => meaning t
  | _ => none

/-- The meaning of the only value under a name, if there is one at all. -/
def atMostOnce? (members : MemberList) (name : String) (meaning : Tree → Option α) :
    Option (Option α) :=
  match members.under name with
  | [] => some none
  | [t] => some <$> meaning t
  | _ => none

/-- What a slot holds behind the members that go into it: it takes one value under its name. -/
def pick (name : String) (meaning : Tree → Option α) : Option α → MemberList → Option (Option α)
  | slot, [] => some slot
  | _, (none, _) :: _ => none
  | slot, (some key, t) :: members =>
    if key = name then
      if slot.isSome then none else meaning t >>= fun x => pick name meaning (some x) members
    else pick name meaning slot members

theorem pick_same (name : String) (meaning : Tree → Option α) (slot : Option α) (t : Tree)
    (members : MemberList) : pick name meaning slot ((some name, t) :: members)
      = if slot.isSome then none else meaning t >>= fun x => pick name meaning (some x) members :=
  if_pos rfl

theorem pick_other {name key : String} (h : key ≠ name) (meaning : Tree → Option α)
    (slot : Option α) (t : Tree) (members : MemberList) :
    pick name meaning slot ((some key, t) :: members) = pick name meaning slot members :=
  if_neg h

theorem under_cons (name key : String) (t : Tree) (members : MemberList) :
    under name ((some key, t) :: members)
      = if key = name then t :: under name members else under name members := by
  by_cases same : key = name
  · simp [under, same]
  · simp [under, same]

theorem mem_under {name : String} {t : Tree} {members : MemberList}
    (h : (some name, t) ∈ members) : t ∈ under name members :=
  List.mem_filterMap.mpr ⟨_, h, if_pos rfl⟩

theorem named_cons (key : String) (t : Tree) (members : MemberList) :
    named ((some key, t) :: members) = named members := rfl

/-- A slot that is taken stays as it is, if nothing more comes under its name. -/
theorem pick_some (name : String) (meaning : Tree → Option α) (x : α) (members : MemberList) :
    pick name meaning (some x) members
      = if named members ∧ under name members = [] then some (some x) else none := by
  induction members with
  | nil => rfl
  | cons m members ih =>
    obtain ⟨key, t⟩ := m
    cases key with
    | none => rfl
    | some key =>
      rw [pick, ih, named_cons, under_cons]
      by_cases same : key = name
      · simp [same]
      · simp [same]

/-- A slot that is free is filled with the only value under its name. -/
theorem pick_none (name : String) (meaning : Tree → Option α) (members : MemberList) :
    pick name meaning none members
      = if named members then members.atMostOnce? name meaning else none := by
  induction members with
  | nil => rfl
  | cons m members ih =>
    obtain ⟨key, t⟩ := m
    cases key with
    | none => rfl
    | some key =>
      simp only [pick, ih, named_cons, atMostOnce?, under_cons, pick_some]
      by_cases same : key = name
      · cases hm : meaning t <;> cases hu : under name members <;>
          cases hn : named members <;> simp [same, hm]
      · simp only [same, if_false]

theorem once?_eq (members : MemberList) (name : String) (meaning : Tree → Option α) :
    members.once? name meaning = (members.atMostOnce? name meaning).join := by
  rw [once?, atMostOnce?]
  match members.under name with
  | [] => rfl
  | [t] => cases h : meaning t <;> simp [h]
  | _ :: _ :: _ => rfl

end MemberList

end TargetQuery.Json
