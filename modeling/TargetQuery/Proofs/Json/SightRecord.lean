import TargetQuery.Proofs.Json.SightTokens
import TargetQuery.Proofs.Json.SteadyRecord

/-!
# How far records are looked at

Lists, objects and records look no further than their parts. The fuel for elements and members
depends on the length of the whole text, but not what comes of it, because every element and every
name takes something. A bracket that does not close after a mismatch is looked at like the rest.
-/

namespace TargetQuery.Json

open Grammar Reader

variable {α σ : Type} {n : Nat} {s : Bytes}

/-! ### Between the values -/

theorem shortsighted_openBracket (room : Nat) : Shortsighted (openBracket room) := by
  rw [openBracket]
  split
  · exact shortsighted_failNext (by decide)
  · exact shortsighted_skip.bind fun _ => shortsighted_pure (room - 1)

theorem shortsighted_elementFollows (first : Bool) : Shortsighted (elementFollows first) := by
  refine shortsighted_peekToken.bind fun b => ?_
  cases b with
  | none => exact shortsighted_failNext (by decide)
  | some b =>
    dsimp only
    split
    · exact shortsighted_pure false
    split
    · exact shortsighted_pure true
    split
    · refine shortsighted_skip.bind fun _ => shortsighted_peekToken.bind fun b => ?_
      cases b with
      | none => exact shortsighted_failNext (by decide)
      | some b =>
        dsimp only
        split
        · exact shortsighted_failNext (by decide)
        · exact shortsighted_pure true
    · exact shortsighted_failNext (by decide)

theorem shortsighted_name : Shortsighted (skip >>= fun _ => some <$> stringToken) :=
  shortsighted_skip.bind fun _ => shortsighted_stringToken.map some

theorem shortsighted_nameFollows (first : Bool) : Shortsighted (nameFollows first) := by
  refine shortsighted_peekToken.bind fun b => ?_
  cases b with
  | none => exact shortsighted_failNext (by decide)
  | some b =>
    dsimp only
    split
    · exact shortsighted_pure none
    split
    · split
      · exact shortsighted_name
      · exact shortsighted_failNext (by decide)
    split
    · refine shortsighted_skip.bind fun _ => shortsighted_peekToken.bind fun b => ?_
      cases b with
      | none => exact shortsighted_failNext (by decide)
      | some b =>
        dsimp only
        split
        · exact shortsighted_name
        split
        · exact shortsighted_failNext (by decide)
        · exact shortsighted_failNext (by decide)
    · exact shortsighted_failNext (by decide)

theorem shortsighted_colonToken : Shortsighted colonToken := by
  refine shortsighted_peekToken.bind fun b => ?_
  cases b with
  | none => exact shortsighted_failNext (by decide)
  | some b =>
    dsimp only
    split
    · exact shortsighted_skip
    · exact shortsighted_failNext (by decide)

/-! ### Closing brackets -/

/-- The attempt to close a bracket as a reader, which always gives a verdict. -/
def Closing.reader (close : Closing) : Reader (Except Error Unit) := fun c => .ok (close c)

/-- The attempt looks one byte past what it takes, and a verdict against it lies there. -/
structure Closing.Shortsighted (close : Closing) : Prop where
  looks : Json.Shortsighted close.reader
  fails : ∀ c e, (close c).1 = .error e →
    e.offset = (close c).2.sight ∧ e.cause ≠ .fault .badUnicode

/-- Gives the verdict that the next byte is wrong. -/
def blames (fault : Fault) : Reader (Except Error Unit) := fun c =>
  .ok (.error ⟨.fault fault, c.sight⟩, c)

theorem shortsighted_blames (fault : Fault) : Shortsighted (blames fault) := by
  intro n s
  refine .took (u := []) (w := s) rfl rfl fun t b first same => ?_
  obtain ⟨s, rfl⟩ := List.head?_eq_some_iff.mp first
  obtain ⟨t, rfl⟩ := List.head?_eq_some_iff.mp same
  rfl

theorem closeList_reader : closeList.reader = (do
    match ← peekToken with
    | none => blames .endInList
    | some b =>
      if b == Ascii.closeBracket then (do skip; pure (.ok ()))
      else if b == Ascii.comma then (do
        skip
        let b ← peekToken
        blames (if b == some Ascii.closeBracket then .trailingComma else .trailingText))
      else blames .trailingText) := by
  funext c
  simp only [Closing.reader, closeList, bind, StateT.bind, Except.bind, peekToken]
  obtain ⟨m, rest⟩ := c.skipSpace
  cases rest with
  | nil => rfl
  | cons b rest =>
    simp only [List.head?_cons]
    split
    · rfl
    split
    · rfl
    · rfl

theorem shortsighted_closeList : closeList.Shortsighted where
  looks := by
    rw [closeList_reader]
    refine shortsighted_peekToken.bind fun b => ?_
    cases b with
    | none => exact shortsighted_blames _
    | some b =>
      dsimp only
      split
      · exact shortsighted_skip.bind fun _ => shortsighted_pure _
      split
      · exact shortsighted_skip.bind fun _ => shortsighted_peekToken.bind fun b =>
          shortsighted_blames _
      · exact shortsighted_blames _
  fails c e h := by
    simp only [closeList] at h ⊢
    split at h
    · next ended =>
      obtain rfl := Except.error.inj h
      simp [Cursor.sight, ended]
    · split at h
      · cases h
      split at h
      · obtain rfl := Except.error.inj h
        refine ⟨?_, ?_⟩
        · simp [*]
        · dsimp only
          split <;> simp
      · obtain rfl := Except.error.inj h
        simp [*]

theorem closeObject_reader : closeObject.reader = (do
    match ← peekToken with
    | none => blames .endInObject
    | some b =>
      if b == Ascii.closeBrace then (do skip; pure (.ok ()))
      else if b == Ascii.comma then blames .trailingComma
      else blames .trailingText) := by
  funext c
  simp only [Closing.reader, closeObject, bind, StateT.bind, Except.bind, peekToken]
  obtain ⟨m, rest⟩ := c.skipSpace
  cases rest with
  | nil => rfl
  | cons b rest =>
    simp only [List.head?_cons]
    split
    · rfl
    split
    · rfl
    · rfl

theorem shortsighted_closeObject : closeObject.Shortsighted where
  looks := by
    rw [closeObject_reader]
    refine shortsighted_peekToken.bind fun b => ?_
    cases b with
    | none => exact shortsighted_blames _
    | some b =>
      dsimp only
      split
      · exact shortsighted_skip.bind fun _ => shortsighted_pure _
      split
      · exact shortsighted_blames _
      · exact shortsighted_blames _
  fails c e h := by
    simp only [closeObject] at h ⊢
    split at h
    · next ended =>
      obtain rfl := Except.error.inj h
      simp [Cursor.sight, ended]
    · split at h
      · cases h
      split at h
      · obtain rfl := Except.error.inj h
        simp [*]
      · obtain rfl := Except.error.inj h
        simp [*]

/-- The outcome of content that has been read, by the verdict on the bracket behind it. -/
def concluded : Except Mismatch α → Except Error Unit → Reader α
  | .error m, _ => mismatch m
  | .ok a, .ok () => pure a
  | .ok _, .error e => fun _ => .error e

theorem enclosed_pure (close : Closing) (verdict : Except Mismatch α) :
    enclosed close (pure verdict) = close.reader >>= concluded verdict := by
  funext c
  cases verdict with
  | error m => rfl
  | ok a =>
    change (close c).1.map (fun _ => (a, (close c).2)) = concluded (.ok a) (close c).1 (close c).2
    cases (close c).1 <;> rfl

/-- What stands between brackets and the bracket behind it. -/
theorem shortsighted_enclosed {close : Closing} {content : Reader (Except Mismatch α)}
    (closes : close.Shortsighted) (h : Shortsighted content) :
    Shortsighted (enclosed close content) := by
  rw [enclosed_eq]
  refine h.bind fun verdict n s => ?_
  rw [enclosed_pure]
  refine (closes.looks n s).bind fun closed u w _ run => ?_
  cases verdict with
  | error m => exact shortsighted_mismatch m _ _
  | ok a =>
    cases closed with
    | ok _ => exact rests_pure a
    | error e =>
      have ends : close ⟨n, s⟩ = (.error e, ⟨n + u.length, w⟩) := Except.ok.inj run
      have failed := closes.fails ⟨n, s⟩ e (by rw [ends])
      rw [ends] at failed
      exact rests_error_next failed.2 rfl failed.1 fun _ _ _ => rfl

/-! ### Fuel -/

/-- In a sequence only what comes behind the value that is read counts. -/
theorem bind_congr_of_ok {β γ : Type} {r : Reader β} {f g : β → Reader γ} {c : Cursor}
    (h : ∀ a c', r c = .ok (a, c') → f a c' = g a c') : (r >>= f) c = (r >>= g) c := by
  cases run : r c with
  | error e => rw [bind_of_error run, bind_of_error run]
  | ok result =>
    obtain ⟨a, c'⟩ := result
    rw [bind_of_ok run, bind_of_ok run, h a c' run]

/-- The reader takes something whenever it gives a value. -/
def Shrinks (r : Reader α) : Prop :=
  ∀ c a c', r c = .ok (a, c') → c'.rest.length < c.rest.length

/-- More fuel than there are bytes makes no difference. -/
theorem elements_fuel {item : Reader α} (shrinks : Shrinks item) {fuel fuel' : Nat} {first : Bool}
    {c : Cursor} (enough : c.rest.length < fuel) (enough' : c.rest.length < fuel') :
    elements item fuel first c = elements item fuel' first c := by
  induction fuel generalizing fuel' first c with
  | zero => exact absurd enough (Nat.not_lt_zero _)
  | succ fuel ih =>
    obtain ⟨fuel', rfl⟩ := Nat.exists_eq_add_one_of_ne_zero (Nat.ne_zero_of_lt enough')
    rw [elements, elements]
    refine bind_congr_of_ok fun follows c₁ run => ?_
    have kept := (shortsighted_elementFollows first).length_le run
    cases follows with
    | false => rfl
    | true =>
      refine bind_congr_of_ok fun a c₂ run => ?_
      have shorter := shrinks _ _ _ run
      have same : elements item fuel false c₂ = elements item fuel' false c₂ :=
        ih (by omega) (by omega)
      simp only [bind, StateT.bind, Except.bind, same]

/-- With fuel for all elements, there is fuel for those behind the first one. -/
theorem withFuel_elements {item : Reader α} (shrinks : Shrinks item) (first : Bool) :
    withFuel (fun fuel => elements item fuel first) = elementFollows first >>= fun follows =>
      if follows then item >>= fun a => (a :: ·) <$> withFuel fun fuel => elements item fuel false
      else pure [] := by
  funext c
  rw [withFuel, elements]
  refine bind_congr_of_ok fun follows c₁ run => ?_
  have kept := (shortsighted_elementFollows first).length_le run
  cases follows with
  | false => rfl
  | true =>
    refine bind_congr_of_ok fun a c₂ run => ?_
    have shorter := shrinks _ _ _ run
    have same : elements item c.rest.length false c₂
        = elements item (c₂.rest.length + 1) false c₂ :=
      elements_fuel shrinks (by omega) (by omega)
    rw [map_eq_pure_bind]
    simp only [bind, StateT.bind, Except.bind, withFuel, same]

/-- Elements are read without looking ahead, if each of them is. -/
theorem shortsighted_elements {item : Reader α} (h : Shortsighted item) (shrinks : Shrinks item)
    (first : Bool) : Shortsighted (withFuel fun fuel => elements item fuel first) := by
  intro n s
  induction length : s.length using Nat.strongRecOn generalizing n s first with
  | ind k ih =>
    subst length
    rw [withFuel_elements shrinks]
    refine (shortsighted_elementFollows first n s).bind fun follows u w split _ => ?_
    cases follows with
    | false => exact rests_pure []
    | true =>
      refine (h _ w).bind fun a v x split' run => Rests.map ?_ (a :: ·)
      have shorter : x.length < w.length := shrinks _ _ _ run
      refine ih _ ?_ false _ x rfl
      rw [split, List.length_append]
      omega

theorem shortsighted_listValue {item : Nat → Reader α} (h : ∀ room, Shortsighted (item room))
    (shrinks : ∀ room, Shrinks (item room)) (room : Nat) :
    Shortsighted (listValue item room) := by
  refine shortsighted_peekToken.bind fun b => ?_
  cases b with
  | none => exact shortsighted_failNext (by decide)
  | some b =>
    dsimp only
    split
    · exact (shortsighted_openBracket room).bind fun room =>
        shortsighted_enclosed shortsighted_closeList
          ((shortsighted_elements (h room) (shrinks room) true).map _)
    · exact shortsighted_mistyped _

section

variable {step : σ → String → Reader (Except Mismatch σ)}

theorem foldMembers_fuel (h : ∀ d name, Shortsighted (step d name)) {fuel fuel' : Nat}
    {first : Bool} {d : σ} {c : Cursor} (enough : c.rest.length < fuel)
    (enough' : c.rest.length < fuel') :
    foldMembers step fuel first d c = foldMembers step fuel' first d c := by
  induction fuel generalizing fuel' first d c with
  | zero => exact absurd enough (Nat.not_lt_zero _)
  | succ fuel ih =>
    obtain ⟨fuel', rfl⟩ := Nat.exists_eq_add_one_of_ne_zero (Nat.ne_zero_of_lt enough')
    rw [foldMembers, foldMembers]
    refine bind_congr_of_ok fun name c₁ run => ?_
    cases name with
    | none => rfl
    | some name =>
      have shorter := nameFollows_length_lt run
      refine bind_congr_of_ok fun verdict c₂ run => ?_
      have kept := (h d name).length_le run
      cases verdict with
      | error m => rfl
      | ok d => exact ih (by omega) (by omega)

variable (step) in
/-- Goes on behind a member, unless a mismatch was found in it. -/
def foldBehind : Except Mismatch σ → Reader (Except Mismatch σ)
  | .error m => pure (.error m)
  | .ok d => withFuel fun fuel => foldMembers step fuel false d

variable (step) in
/-- Takes the member of a name, and those behind it. -/
def foldNamed (d : σ) : Option String → Reader (Except Mismatch σ)
  | none => pure (.ok d)
  | some name => step d name >>= foldBehind step

/-- With fuel for all members, there is fuel for those behind the first one. -/
theorem withFuel_foldMembers (h : ∀ d name, Shortsighted (step d name)) (first : Bool) (d : σ) :
    withFuel (fun fuel => foldMembers step fuel first d)
      = nameFollows first >>= foldNamed step d := by
  funext c
  rw [withFuel, foldMembers]
  refine bind_congr_of_ok fun name c₁ run => ?_
  cases name with
  | none => rfl
  | some name =>
    have shorter := nameFollows_length_lt run
    refine bind_congr_of_ok fun verdict c₂ run => ?_
    have kept := (h d name).length_le run
    cases verdict with
    | error m => rfl
    | ok d => exact foldMembers_fuel h (by omega) (Nat.lt_succ_self _)

/-- Members are read without looking ahead, if each of them is. -/
theorem shortsighted_foldMembers (h : ∀ d name, Shortsighted (step d name)) (first : Bool) (d : σ) :
    Shortsighted (withFuel fun fuel => foldMembers step fuel first d) := by
  intro n s
  induction length : s.length using Nat.strongRecOn generalizing n s first d with
  | ind k ih =>
    subst length
    rw [withFuel_foldMembers h]
    refine (shortsighted_nameFollows first n s).bind fun name u w split run => ?_
    cases name with
    | none => exact rests_pure _
    | some name =>
      have shorter : w.length < s.length := nameFollows_length_lt run
      refine (h d name _ w).bind fun verdict v x split' _ => ?_
      cases verdict with
      | error m => exact rests_pure _
      | ok d =>
        refine ih _ ?_ false d _ x rfl
        rw [split', List.length_append] at shorter
        omega

end

/-! ### Records -/

namespace Record

variable {r : Record σ α}

theorem shortsighted_memberStep {room : Nat}
    (h : ∀ field ∈ r.fields, ∀ d, Shortsighted (field.read room d)) (d : σ) (name : String) :
    Shortsighted (r.memberStep room d name) := by
  rw [memberStep]
  cases found : r.fields.find? (·.name == name) with
  | none =>
    exact shortsighted_colonToken.bind fun _ => shortsighted_skipValue.bind fun _ =>
      shortsighted_pure _
  | some field =>
    dsimp only
    split
    · exact shortsighted_pure _
    · exact shortsighted_colonToken.bind fun _ => (h field (find?_eq_some found).1 d).map _

theorem shortsighted_listFields {room : Nat} {fields : List (RecordField σ)}
    (h : ∀ field ∈ fields, ∀ d, Shortsighted (field.read room d)) (i : Nat) (d : σ) :
    Shortsighted (r.listFields room fields i d) := by
  induction fields generalizing i d with
  | nil => exact shortsighted_pure _
  | cons field fields ih =>
    rw [List.forall_mem_cons] at h
    refine (shortsighted_elementFollows (i == 0)).bind fun follows => ?_
    split
    · exact (h.1 d).bind fun d => ih h.2 (i + 1) d
    split
    · exact ih h.2 i d
    · exact shortsighted_pure _

/-- A record is read without looking ahead, if its fields are. -/
theorem shortsighted_read (h : ∀ field ∈ r.fields, ∀ room d, Shortsighted (field.read room d))
    (room : Nat) : Shortsighted (r.read room) := by
  refine shortsighted_peekToken.bind fun b => ?_
  cases b with
  | none => exact shortsighted_failNext (by decide)
  | some b =>
    dsimp only
    split
    · refine (shortsighted_openBracket room).bind fun room =>
        shortsighted_enclosed shortsighted_closeList (Shortsighted.map ?_ _)
      exact shortsighted_listFields (fun field mem => h field mem room) 0 r.empty
    split
    · refine (shortsighted_openBracket room).bind fun room =>
        shortsighted_enclosed shortsighted_closeObject (Shortsighted.map ?_ _)
      exact shortsighted_foldMembers
        (shortsighted_memberStep fun field mem => h field mem room) true r.empty
    · exact shortsighted_mistyped _

end Record

end TargetQuery.Json
