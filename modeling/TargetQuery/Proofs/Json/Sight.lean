import TargetQuery.Proofs.Json.Grammar
import TargetQuery.Json.Reader

/-!
# How far a reader looks

A reader takes bytes from the front and looks at the byte behind them, and no further. So what it
gives depends on these bytes only, and an error lies where it has looked. The one exception is a
string that is not text: this is noticed at its end, and the error lies before that.
-/

namespace TargetQuery.Json

open Grammar Reader

variable {α β : Type}

/-- The error lies where the bytes end that have been looked at, the last one counted or not. In a
string that is not text it may lie further in front. -/
structure Shows (e : Error) (n : Nat) (seen : Bytes) : Prop where
  lower : n ≤ e.offset
  upper : e.offset ≤ n + seen.length
  last : e.cause ≠ .fault .badUnicode → n + seen.length ≤ e.offset + 1
  within : e.cause = .fault .badUnicode → ∃ before token, seen = before ++ token ∧
    LooseChars token [] ∧ n + before.length < e.offset

/-- How a reader ends on a text at an offset, and on the texts that begin in the same way. -/
inductive Rests (r : Reader α) (n : Nat) (s : Bytes) : Prop
  /-- A value is read, and the byte behind it counts. -/
  | took {a : α} {u w : Bytes} (split : s = u ++ w) (ends : r ⟨n, s⟩ = .ok (a, ⟨n + u.length, w⟩))
      (again : ∀ t b, w.head? = some b → t.head? = some b →
        r ⟨n, u ++ t⟩ = .ok (a, ⟨n + u.length, t⟩))
  /-- The text ends. -/
  | ended {e : Error} (ends : r ⟨n, s⟩ = .error e) (offset : e.offset = n + s.length)
      (noText : e.cause ≠ .fault .badUnicode)
  /-- An error has shown, and what follows does not count. -/
  | stopped {e : Error} {u w : Bytes} (split : s = u ++ w) (shows : Shows e n u)
      (again : ∀ t, r ⟨n, u ++ t⟩ = .error e)

/-- The reader looks no further than one byte past what it takes. -/
def Shortsighted (r : Reader α) : Prop := ∀ n s, Rests r n s

variable {r : Reader α} {f : α → Reader β} {n : Nat} {s : Bytes}

/-! ### Errors -/

/-- An error that shows in some bytes shows with others in front of them, too. -/
theorem Shows.behind {e : Error} {u v : Bytes} (h : Shows e (n + u.length) v) :
    Shows e n (u ++ v) where
  lower := Nat.le_of_add_right_le h.lower
  upper := by
    have := h.upper
    rw [List.length_append]
    omega
  last noText := by
    have := h.last noText
    rw [List.length_append]
    omega
  within text := by
    obtain ⟨before, token, rfl, loose, later⟩ := h.within text
    refine ⟨u ++ before, token, (List.append_assoc ..).symm, loose, ?_⟩
    rw [List.length_append]
    omega

/-- What is noticed without another look is as if the next byte had been seen. -/
theorem Shows.of_nil {e : Error} (h : Shows e n []) (b : UInt8) : Shows e n [b] where
  lower := h.lower
  upper := Nat.le_trans h.upper (Nat.le_add_right _ _)
  last _ := Nat.add_le_add_right h.lower 1
  within text := by
    obtain ⟨before, token, split, -, later⟩ := h.within text
    obtain ⟨rfl, rfl⟩ := List.append_eq_nil_iff.mp split.symm
    have := h.upper
    simp only [List.length_nil] at this later
    omega

theorem Shows.noText_of_nil {e : Error} (h : Shows e n []) : e.cause ≠ .fault .badUnicode := by
  intro text
  obtain ⟨before, token, split, loose, -⟩ := h.within text
  obtain ⟨rfl, rfl⟩ := List.append_eq_nil_iff.mp split.symm
  cases loose

/-- An error at the end of what was taken, or of what was seen. -/
theorem shows_of_offset {e : Error} {seen : Bytes} (noText : e.cause ≠ .fault .badUnicode)
    (lower : n ≤ e.offset) (upper : e.offset ≤ n + seen.length)
    (last : n + seen.length ≤ e.offset + 1) : Shows e n seen :=
  ⟨lower, upper, fun _ => last, fun text => absurd text noText⟩

/-! ### Sequences -/

theorem rests_pure (a : α) : Rests (pure a) n s :=
  .took (u := []) rfl rfl fun _ _ _ _ => rfl

theorem bind_of_ok {c c' : Cursor} {a : α} (h : r c = .ok (a, c')) : (r >>= f) c = f a c' := by
  simp [bind, StateT.bind, Except.bind, h]

theorem bind_of_error {c : Cursor} {e : Error} (h : r c = .error e) :
    (r >>= f) c = .error e := by
  simp [bind, StateT.bind, Except.bind, h]

/-- A reader that goes on as another one behind some bytes rests where the other one does. -/
theorem Rests.of_step {g : Reader α} {u w : Bytes} (split : s = u ++ w)
    (step : r ⟨n, u ++ w⟩ = g ⟨n + u.length, w⟩)
    (again : ∀ t b, w.head? = some b → t.head? = some b → r ⟨n, u ++ t⟩ = g ⟨n + u.length, t⟩)
    (next : Rests g (n + u.length) w) : Rests r n s := by
  subst split
  have behind : ∀ b v t, w = b :: v → r ⟨n, u ++ b :: t⟩ = g ⟨n + u.length, b :: t⟩ :=
    fun b v t split => again (b :: t) b (by rw [split]; rfl) rfl
  cases next with
  | ended ends offset noText =>
    refine .ended (step.trans ends) ?_ noText
    rw [offset, List.length_append, Nat.add_assoc]
  | @took a v x split ends again' =>
    have length : n + u.length + v.length = n + (u ++ v).length := by
      rw [List.length_append, Nat.add_assoc]
    refine .took (u := u ++ v) (w := x) (a := a) (by rw [split, List.append_assoc]) ?_
      fun t b first same => ?_
    · rw [step, ends, length]
    · rw [List.append_assoc, ← length, ← again' t b first same]
      cases v with
      | nil => exact again t b (by rw [split, List.nil_append, first]) same
      | cons c v => exact behind c _ _ split
  | @stopped e v x split shows again' =>
    cases v with
    | cons c v =>
      refine .stopped (u := u ++ c :: v) (w := x) (by rw [split, List.append_assoc]) shows.behind
        fun t => ?_
      rw [List.append_assoc, ← again' t]
      exact behind c _ _ split
    | nil =>
      -- The other reader stops without a look, so the byte in front of it counts.
      cases w with
      | nil =>
        refine .ended (step.trans (again' [])) ?_ shows.noText_of_nil
        have lower := shows.lower
        have upper := shows.upper
        simp only [List.append_nil, List.length_nil] at upper ⊢
        omega
      | cons c w =>
        refine .stopped (u := u ++ [c]) (w := w) (by simp) (shows.of_nil c).behind fun t => ?_
        rw [List.append_assoc, ← again' ([c] ++ t)]
        exact behind c w t rfl

/-- A sequence rests where its parts do. -/
theorem Rests.bind (h : Rests r n s)
    (next : ∀ a u w, s = u ++ w → r ⟨n, s⟩ = .ok (a, ⟨n + u.length, w⟩) →
      Rests (f a) (n + u.length) w) : Rests (r >>= f) n s := by
  cases h with
  | ended ends offset noText => exact .ended (bind_of_error ends) offset noText
  | stopped split shows again => exact .stopped split shows fun t => bind_of_error (again t)
  | @took a u w split ends again =>
    refine .of_step split ?_ (fun t b first same => bind_of_ok (again t b first same))
      (next a u w split ends)
    rw [← split]
    exact bind_of_ok ends

theorem Rests.map (h : Rests r n s) (g : α → β) : Rests (g <$> r) n s := by
  rw [map_eq_pure_bind]
  exact h.bind fun a _ _ _ _ => rests_pure (g a)

theorem shortsighted_pure (a : α) : Shortsighted (pure a : Reader α) :=
  fun _ _ => rests_pure a

theorem Shortsighted.bind (h : Shortsighted r) (next : ∀ a, Shortsighted (f a)) :
    Shortsighted (r >>= f) :=
  fun n s => (h n s).bind fun a _ w _ _ => next a _ w

theorem Shortsighted.map (h : Shortsighted r) (g : α → β) : Shortsighted (g <$> r) :=
  fun n s => (h n s).map g

/-- A reader takes nothing from behind the text. -/
theorem Shortsighted.split (h : Shortsighted r) {a : α} {c : Cursor}
    (ends : r ⟨n, s⟩ = .ok (a, c)) : ∃ u w, s = u ++ w ∧ c = ⟨n + u.length, w⟩ := by
  cases h n s with
  | ended ends' => cases ends.symm.trans ends'
  | stopped split _ again =>
    rw [split, again] at ends
    cases ends
  | took split ends' =>
    obtain ⟨rfl, rfl⟩ := Prod.mk.inj (Except.ok.inj (ends.symm.trans ends'))
    exact ⟨_, _, split, rfl⟩

theorem Shortsighted.length_le (h : Shortsighted r) {a : α} {c : Cursor}
    (ends : r ⟨n, s⟩ = .ok (a, c)) : c.rest.length ≤ s.length := by
  obtain ⟨u, w, rfl, rfl⟩ := h.split ends
  rw [List.length_append]
  exact Nat.le_add_left _ _

/-! ### Single steps -/

theorem shortsighted_peek : Shortsighted peek :=
  fun n s => .took (u := []) rfl rfl fun t b first same => by
    rw [List.nil_append, peek, same, first]
    rfl

theorem shortsighted_next? : Shortsighted next? := by
  intro n s
  cases s with
  | nil => exact .took (u := []) rfl rfl fun t b first => by cases first
  | cons b s => exact .took (u := [b]) rfl rfl fun _ _ _ _ => rfl

theorem shortsighted_skip : Shortsighted skip := by
  intro n s
  cases s with
  | nil => exact .took (u := []) rfl rfl fun t b first => by cases first
  | cons b s => exact .took (u := [b]) rfl rfl fun _ _ _ _ => rfl

/-- The white space that is skipped is the same in front of the same byte. -/
theorem exists_skipSpace (n : Nat) (s : Bytes) :
    ∃ u w, s = u ++ w ∧ Cursor.skipSpace ⟨n, s⟩ = ⟨n + u.length, w⟩ ∧
      ∀ t b, w.head? = some b → t.head? = some b →
        Cursor.skipSpace ⟨n, u ++ t⟩ = ⟨n + u.length, t⟩ := by
  induction s generalizing n with
  | nil => exact ⟨[], [], rfl, rfl, fun t b first => by cases first⟩
  | cons b s ih =>
    have step : ∀ s', Cursor.skipSpace ⟨n, b :: s'⟩
      = if isSpace b then Cursor.skipSpace ⟨n + 1, s'⟩ else ⟨n, b :: s'⟩ := fun _ => rfl
    by_cases space : isSpace b = true
    · obtain ⟨u, w, split, skips, again⟩ := ih (n + 1)
      have length : n + 1 + u.length = n + (b :: u).length := by
        rw [List.length_cons, Nat.add_assoc, Nat.add_comm 1]
      refine ⟨b :: u, w, by rw [split]; rfl, ?_, fun t c first same => ?_⟩
      · rw [step, if_pos space, skips, length]
      · rw [List.cons_append, step, if_pos space, again t c first same, length]
    · refine ⟨[], b :: s, rfl, ?_, fun t c first same => ?_⟩
      · rw [step, if_neg space]
        rfl
      · obtain rfl := Option.some.inj first
        obtain ⟨t, rfl⟩ : ∃ t', t = b :: t' := by
          cases t with
          | nil => cases same
          | cons x t =>
            obtain rfl := Option.some.inj same
            exact ⟨t, rfl⟩
        rw [List.nil_append, step, if_neg space]
        rfl

theorem shortsighted_peekToken : Shortsighted peekToken := by
  intro n s
  obtain ⟨u, w, split, skips, again⟩ := exists_skipSpace n s
  refine .took (u := u) (w := w) (a := w.head?) split ?_ fun t b first same => ?_
  · rw [peekToken, skips]
  · rw [peekToken, again t b first same, first, ← same]

/-- An error where the next byte begins. -/
theorem rests_error_here {e : Error} (noText : e.cause ≠ .fault .badUnicode) (offset : e.offset = n)
    (stops : ∀ t, r ⟨n, t⟩ = .error e) : Rests r n s := by
  refine .stopped (u := []) rfl (shows_of_offset noText ?_ ?_ ?_) stops
  · exact Nat.le_of_eq offset.symm
  · exact Nat.le_of_eq offset
  · simp [offset]

/-- An error where the next byte ends, if there is one. -/
theorem rests_error_next {e : Error} (noText : e.cause ≠ .fault .badUnicode)
    (ends : r ⟨n, s⟩ = .error e) (offset : e.offset = Cursor.sight ⟨n, s⟩)
    (again : ∀ b t, s.head? = some b → r ⟨n, b :: t⟩ = .error e) : Rests r n s := by
  cases s with
  | nil => exact .ended ends offset noText
  | cons b s =>
    have offset : e.offset = n + 1 := offset
    exact .stopped (u := [b]) rfl (shows_of_offset noText (by omega) (by simp [offset])
      (by simp [offset])) fun t => again b t rfl

theorem shortsighted_failHere {fault : Fault} (noText : fault ≠ .badUnicode) :
    Shortsighted (failHere fault : Reader α) := by
  intro n s
  exact rests_error_here (e := ⟨.fault fault, n⟩) (by simpa using noText) rfl fun _ => rfl

theorem shortsighted_failNext {fault : Fault} (noText : fault ≠ .badUnicode) :
    Shortsighted (failNext fault : Reader α) := by
  intro n s
  refine rests_error_next (e := ⟨.fault fault, Cursor.sight ⟨n, s⟩⟩) (by simpa using noText) rfl rfl
    fun b t first => ?_
  cases s with
  | nil => cases first
  | cons c s => rfl

theorem shortsighted_mismatch (m : Mismatch) : Shortsighted (mismatch m : Reader α) := by
  intro n s
  exact rests_error_here (e := ⟨.mismatch m, n⟩) (by simp) rfl fun _ => rfl

theorem shortsighted_word (w : Bytes) : Shortsighted (word w) := by
  induction w with
  | nil => exact shortsighted_pure ()
  | cons expected w ih =>
    refine shortsighted_next?.bind fun next => ?_
    cases next with
    | none => exact shortsighted_failHere (by decide)
    | some b =>
      dsimp only
      split
      · exact ih
      · exact shortsighted_failHere (by decide)

/-! ### Whole texts -/

/-- A reader with the check that nothing but white space follows. -/
def wholly (r : Reader α) : Reader α := do
  let a ← r
  match ← peekToken with
  | none => pure a
  | some _ => failNext .trailingText

theorem run_eq_wholly (r : Reader α) (s : Bytes) :
    r.run s = (wholly r (Cursor.ofBytes s)).map Prod.fst := by
  simp only [Reader.run, wholly, bind, StateT.bind, Except.bind]
  cases r (Cursor.ofBytes s) with
  | error e => rfl
  | ok result =>
    simp only [peekToken]
    cases (result.2.skipSpace).rest.head? <;> rfl

theorem Shortsighted.wholly (h : Shortsighted r) : Shortsighted (wholly r) := by
  refine h.bind fun a => shortsighted_peekToken.bind fun next => ?_
  cases next with
  | none => exact shortsighted_pure a
  | some b => exact shortsighted_failNext (by decide)

/-- Where the error of a text lies, and in which other texts it lies there too. -/
theorem Shortsighted.run_eq_error (h : Shortsighted r) {e : Error} (failed : r.run s = .error e) :
    (e.offset = s.length ∧ e.cause ≠ .fault .badUnicode) ∨
      ∃ u w, s = u ++ w ∧ Shows e 0 u ∧ ∀ t, r.run (u ++ t) = .error e := by
  have failure : ∀ {t}, r.run t = .error e ↔ Json.wholly r ⟨0, t⟩ = .error e := by
    intro t
    rw [run_eq_wholly]
    change (Json.wholly r ⟨0, t⟩).map Prod.fst = _ ↔ _
    cases Json.wholly r ⟨0, t⟩ <;> simp [Except.map]
  rw [failure] at failed
  cases h.wholly 0 s with
  | took _ ends =>
    rw [ends] at failed
    cases failed
  | ended ends offset noText =>
    obtain rfl := Except.error.inj (ends.symm.trans failed)
    exact .inl ⟨by simpa using offset, noText⟩
  | @stopped e' u w split shows again =>
    obtain rfl := Except.error.inj ((again w).symm.trans (split ▸ failed))
    exact .inr ⟨u, w, split, shows, fun t => failure.mpr (again t)⟩

end TargetQuery.Json
