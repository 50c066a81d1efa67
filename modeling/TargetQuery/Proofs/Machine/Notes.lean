import TargetQuery.Machine.Command

/-!
# Actions that only take notes

Much of what is done in the surroundings only looks at them, and says what it sees. What such an
action gives does not depend on what has been said before, and nothing but the notices is different
afterwards. Courses are run step by step, until one of them ends the whole.
-/

namespace TargetQuery

variable {α β : Type}

/-- Only the notices change, and they do not matter for the value. -/
def OnlyNotes (a : Action α) : Prop :=
  ∀ w notices, ∃ notices', a { w with notices } = ((a w).1, { w with notices := notices' })

namespace OnlyNotes

theorem exists_eq {a : Action α} (h : OnlyNotes a) (w : World) :
    ∃ notices, a w = ((a w).1, { w with notices }) :=
  h w w.notices

theorem value_eq {a : Action α} (h : OnlyNotes a) (w : World) (notices : List Notice) :
    (a { w with notices }).1 = (a w).1 := by
  obtain ⟨_, ran⟩ := h w notices
  rw [ran]

theorem pure (x : α) : OnlyNotes (Pure.pure x : Action α) := by
  intro w notices
  exact ⟨notices, rfl⟩

theorem log (level : Level) (text : String) : OnlyNotes (TargetQuery.log level text) := by
  intro w notices
  exact ⟨notices ++ [.log level text], rfl⟩

theorem bind_value {a : Action α} (h : OnlyNotes a) {f : α → Action β} (w : World)
    (rest : OnlyNotes (f (a w).1)) : ((a >>= f) w).1 = (f (a w).1 w).1 := by
  obtain ⟨notices, ran⟩ := h.exists_eq w
  simp only [Bind.bind, StateT.bind]
  rw [ran]
  exact rest.value_eq w notices

theorem bind {a : Action α} {f : α → Action β} (h : OnlyNotes a) (rest : ∀ x, OnlyNotes (f x)) :
    OnlyNotes (a >>= f) := by
  intro w notices
  obtain ⟨first, ran⟩ := h w notices
  obtain ⟨second, ran'⟩ := rest (a w).1 w first
  refine ⟨second, ?_⟩
  rw [h.bind_value w (rest _)]
  simp only [Bind.bind, StateT.bind, ran]
  exact ran'

/-- An action may look at the world, as long as it does not look at the notices. -/
theorem get_bind {f : World → Action α} (h : ∀ w, OnlyNotes (f w))
    (same : ∀ w notices, f { w with notices } = f w) : OnlyNotes (get >>= f) := by
  intro w notices
  obtain ⟨notices', ran⟩ := h w w notices
  refine ⟨notices', ?_⟩
  change f { w with notices } { w with notices } = ((f w w).1, { w with notices := notices' })
  rw [same]
  exact ran

end OnlyNotes

theorem Action.get_bind_apply (f : World → Action α) (w : World) :
    (get >>= f : Action α) w = f w w := rfl

/-! ### Courses -/

namespace Course

variable {x : Course α} {f : α → Course β} {w w' : World}

theorem run_lift (a : Action α) (w : World) :
    (liftM a : Course α).run w = (.ok (a w).1, (a w).2) := rfl

theorem run_bind_of_ok {a : α} (h : x.run w = (.ok a, w')) : (x >>= f).run w = (f a).run w' := by
  rw [ExceptT.run_bind]
  simp only [Bind.bind, StateT.bind]
  rw [h]

theorem run_bind_of_error {ended : Completed} (h : x.run w = (.error ended, w')) :
    (x >>= f).run w = (.error ended, w') := by
  rw [ExceptT.run_bind]
  simp only [Bind.bind, StateT.bind]
  rw [h]
  rfl

end Course

end TargetQuery
