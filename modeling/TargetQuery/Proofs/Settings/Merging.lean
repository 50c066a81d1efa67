import TargetQuery.Settings.Basic

/-!
# Merging

Each of the five settings is merged by itself: the upper layer counts where it gives the setting,
and the lower one elsewhere. Two layers are equal if they give the same for every setting, so what
holds of the choice between two values holds of whole layers. Layers can be grouped as one likes,
one that gives nothing does not matter, and one that is merged again changes nothing.
-/

namespace TargetQuery

/-- Something that a layer gives or leaves open. -/
inductive Setting where
  | frontend
  | sdk
  | resourceDir
  | target
  | targetVariant
deriving DecidableEq, Repr

namespace Setting

def Value : Setting → Type
  | .frontend | .sdk | .resourceDir => Path
  | .target | .targetVariant => Triple

def given : (k : Setting) → Settings → Option k.Value
  | .frontend, s => s.frontend
  | .sdk, s => s.sdk
  | .resourceDir, s => s.resourceDir
  | .target, s => s.target
  | .targetVariant, s => s.targetVariant

theorem given_empty (k : Setting) : k.given {} = none := by
  cases k <;> rfl

/-- A setting is merged without a look at the other ones. -/
theorem given_merge (k : Setting) (below above : Settings) :
    k.given (below.merge above) = (k.given above).or (k.given below) := by
  cases k <;> exact Option.orElse_eq_or

end Setting

namespace Settings

/-- There is nothing in a layer besides its settings. -/
theorem eq_of_given_eq {a b : Settings} (same : ∀ k : Setting, k.given a = k.given b) : a = b := by
  obtain ⟨frontend, sdk, resourceDir, target, variant⟩ := a
  obtain rfl : frontend = b.frontend := same .frontend
  obtain rfl : sdk = b.sdk := same .sdk
  obtain rfl : resourceDir = b.resourceDir := same .resourceDir
  obtain rfl : target = b.target := same .target
  obtain rfl : variant = b.targetVariant := same .targetVariant
  rfl

/-- Settings override something if any of them is given. -/
theorem hasOverrides_iff {s : Settings} :
    s.hasOverrides = true ↔ ∃ k : Setting, (k.given s).isSome = true := by
  simp only [hasOverrides, Bool.or_eq_true]
  constructor
  · rintro ((((h | h) | h) | h) | h)
    · exact ⟨.frontend, h⟩
    · exact ⟨.sdk, h⟩
    · exact ⟨.resourceDir, h⟩
    · exact ⟨.target, h⟩
    · exact ⟨.targetVariant, h⟩
  · rintro ⟨k, h⟩
    cases k with
    | frontend => exact .inl (.inl (.inl (.inl h)))
    | sdk => exact .inl (.inl (.inl (.inr h)))
    | resourceDir => exact .inl (.inl (.inr h))
    | target => exact .inl (.inr h)
    | targetVariant => exact .inr h

/-! ### Two and three layers -/

theorem merge_assoc (a b c : Settings) : (a.merge b).merge c = a.merge (b.merge c) :=
  eq_of_given_eq fun k => by simp only [Setting.given_merge, Option.or_assoc]

theorem empty_merge (s : Settings) : merge {} s = s :=
  eq_of_given_eq fun k => by rw [Setting.given_merge, Setting.given_empty, Option.or_none]

theorem merge_empty (s : Settings) : merge s {} = s :=
  eq_of_given_eq fun k => by rw [Setting.given_merge, Setting.given_empty, Option.none_or]

theorem merge_self (s : Settings) : s.merge s = s :=
  eq_of_given_eq fun k => by rw [Setting.given_merge, Option.or_self]

theorem merge_merge_self (a b : Settings) : (a.merge b).merge b = a.merge b := by
  rw [merge_assoc, merge_self]

/-- Something is given on the whole if one of the two layers gives something. -/
theorem hasOverrides_merge (a b : Settings) :
    (a.merge b).hasOverrides = (a.hasOverrides || b.hasOverrides) := by
  rw [Bool.eq_iff_iff, Bool.or_eq_true, hasOverrides_iff, hasOverrides_iff, hasOverrides_iff,
    ← exists_or]
  refine exists_congr fun k => ?_
  rw [Setting.given_merge, Option.isSome_or, Bool.or_eq_true, or_comm]

theorem eq_empty_iff {s : Settings} : s = {} ↔ s.hasOverrides = false := by
  constructor
  · rintro rfl
    rfl
  · intro nothing
    refine eq_of_given_eq fun k => ?_
    rw [Setting.given_empty, ← Option.not_isSome_iff_eq_none]
    intro given
    rw [hasOverrides_iff.mpr ⟨k, given⟩] at nothing
    cases nothing

/-- Paths that are written differently can be the same, but a path is never the same as none. -/
theorem beq_empty (s : Settings) : (s == {}) = !s.hasOverrides := by
  obtain ⟨frontend, sdk, resourceDir, target, variant⟩ := s
  cases frontend <;> cases sdk <;> cases resourceDir <;> cases target <;> cases variant <;> rfl

/-! ### Any number of layers -/

/-- What is merged by itself has, after any number of layers, the value that was given last, or the
one from the start if none was given. -/
theorem foldl_merge {α : Type} {get : Settings → Option α}
    (merges : ∀ below above : Settings, get (below.merge above) = (get above).or (get below))
    (start : Settings) (layers : List Settings) :
    get (layers.foldl merge start) = (layers.filterMap get).getLast?.or (get start) := by
  induction layers generalizing start with
  | nil => rfl
  | cons layer layers ih =>
    -- The first layer is now part of the start: it counts if none behind it does.
    rw [List.foldl_cons, ih, merges, ← Option.or_assoc]
    cases given : get layer with
    | none => rw [List.filterMap_cons_none given, Option.or_none]
    | some value => rw [List.filterMap_cons_some given, List.getLast?_cons, Option.or_some]

/-- Layers can be grouped, the one that gives nothing does not matter and is the only one without
overrides, and a layer twice is that layer once. After any number of layers each setting has the
value of the last layer that gives it, whatever is given for the other settings. -/
theorem merging_laws :
    (∀ a b c : Settings, (a.merge b).merge c = a.merge (b.merge c)) ∧
    (∀ a : Settings, merge {} a = a ∧ a.merge {} = a) ∧
    (∀ a : Settings, a.merge a = a) ∧
    (∀ a b : Settings, (a.merge b).merge b = a.merge b) ∧
    (∀ a b : Settings, (a.merge b).hasOverrides = (a.hasOverrides || b.hasOverrides)) ∧
    (∀ a : Settings, (a = {} ↔ a.hasOverrides = false) ∧ (a == {}) = !a.hasOverrides) ∧
    ∀ (start : Settings) (layers : List Settings) (k : Setting),
      k.given (layers.foldl merge start) = (layers.filterMap k.given).getLast?.or (k.given start) :=
  ⟨merge_assoc, fun a => ⟨empty_merge a, merge_empty a⟩, merge_self, merge_merge_self,
    hasOverrides_merge, fun a => ⟨eq_empty_iff, beq_empty a⟩,
    fun start layers k => foldl_merge k.given_merge start layers⟩

end Settings

end TargetQuery
