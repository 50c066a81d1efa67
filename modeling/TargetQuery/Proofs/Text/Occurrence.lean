/-!
# Texts within texts

A text occurs in another one if the other is that text with something before and behind it.
-/

namespace TargetQuery

/-- The first text is found within the second. -/
def Occurs (part text : String) : Prop := part.toList <:+: text.toList

instance (part text : String) : Decidable (Occurs part text) :=
  inferInstanceAs (Decidable (part.toList <:+: text.toList))

namespace Occurs

variable {part text whole : String}

theorem refl (text : String) : Occurs text text := List.infix_refl _

theorem trans (inner : Occurs part text) (outer : Occurs text whole) : Occurs part whole :=
  List.IsInfix.trans inner outer

/-- A text occurs wherever its parts are put together. -/
theorem behind (before : String) (h : Occurs part text) : Occurs part (before ++ text) := by
  rw [Occurs, String.toList_append]
  exact List.infix_append_of_infix_right h

theorem before (behind : String) (h : Occurs part text) : Occurs part (text ++ behind) := by
  rw [Occurs, String.toList_append]
  exact List.infix_append_of_infix_left h

theorem of_mem_join {texts : List String} (mem : text ∈ texts) :
    Occurs text (String.join texts) := by
  obtain ⟨before, behind, rfl⟩ := List.append_of_mem mem
  rw [String.join_append, String.join_cons]
  exact ((refl text).before _).behind _

end Occurs

end TargetQuery
