import TargetQuery.Proofs.Json.Grammar
import TargetQuery.Json.Reader

/-!
# Runs of readers

How a reader ends is said of the text alone, for every offset. A reader gives a value and leaves a
rest, or refuses the text because its shape is not the one that was asked for. Readers in sequence
end as their parts do, and white space before a token makes no difference.
-/

namespace TargetQuery.Json

open Grammar Reader

variable {α β : Type}

/-- How a reader ends on a text, at any offset. -/
def Ends (r : Reader α) (s : Bytes) (outcome : Except Error (α × Cursor) → Prop) : Prop :=
  ∀ n, outcome (r ⟨n, s⟩)

/-- The value is read and the rest is left. -/
def Leaves (a : α) (rest : Bytes) (result : Except Error (α × Cursor)) : Prop :=
  ∃ m, result = .ok (a, ⟨m, rest⟩)

/-- The text is of another shape. -/
def Misfits (result : Except Error (α × Cursor)) : Prop :=
  ∃ m k, result = .error ⟨.mismatch m, k⟩

/-- The reader takes the text up to the rest. -/
abbrev Reads (r : Reader α) (s : Bytes) (a : α) (rest : Bytes) : Prop := Ends r s (Leaves a rest)

/-- The reader finds the shape wrong. -/
abbrev Refuses (r : Reader α) (s : Bytes) : Prop := Ends r s Misfits

variable {r : Reader α} {f : α → Reader β} {s a rest : Bytes}
  {outcome : Except Error (α × Cursor) → Prop} {outcome' : Except Error (β × Cursor) → Prop}

/-! ### Sequences -/

theorem reads_pure (x : α) (s : Bytes) : Reads (pure x) s x s :=
  fun n => ⟨n, rfl⟩

theorem refuses_mismatch (m : Mismatch) (s : Bytes) : Refuses (mismatch m : Reader α) s :=
  fun n => ⟨m, n, rfl⟩

theorem Reads.bind {x : α} (h : Reads r s x a) (next : Ends (f x) a outcome') :
    Ends (r >>= f) s outcome' := by
  intro n
  obtain ⟨m, h⟩ := h n
  have step : (r >>= f) ⟨n, s⟩ = f x ⟨m, a⟩ := by
    simp [Bind.bind, StateT.bind, Except.bind, h]
  rw [step]
  exact next m

theorem Refuses.bind (h : Refuses r s) (f : α → Reader β) : Refuses (r >>= f) s := by
  intro n
  obtain ⟨m, k, h⟩ := h n
  exact ⟨m, k, by simp [Bind.bind, StateT.bind, Except.bind, h]⟩

theorem Reads.map {x : α} (g : α → β) (h : Reads r s x rest) : Reads (g <$> r) s (g x) rest := by
  intro n
  obtain ⟨m, h⟩ := h n
  exact ⟨m, by simp [Functor.map, StateT.map, Bind.bind, Except.bind, h, pure, Except.pure]⟩

theorem Refuses.map (g : α → β) (h : Refuses r s) : Refuses (g <$> r) s := by
  intro n
  obtain ⟨m, k, h⟩ := h n
  exact ⟨m, k, by simp [Functor.map, StateT.map, Bind.bind, Except.bind, h]⟩

/-- A sequence gives a value if and only if its parts do. -/
theorem bind_eq_ok {c c' : Cursor} {y : β} :
    (r >>= f) c = .ok (y, c') ↔ ∃ x mid, r c = .ok (x, mid) ∧ f x mid = .ok (y, c') := by
  cases h : r c with
  | error e => simp [Bind.bind, StateT.bind, Except.bind, h]
  | ok step =>
    obtain ⟨x, mid⟩ := step
    simp [Bind.bind, StateT.bind, Except.bind, h, and_assoc]

theorem map_eq_ok {c c' : Cursor} {g : α → β} {y : β} :
    (g <$> r) c = .ok (y, c') ↔ ∃ x, r c = .ok (x, c') ∧ g x = y := by
  cases h : r c with
  | error e => simp [Functor.map, StateT.map, Bind.bind, Except.bind, h]
  | ok step =>
    obtain ⟨x, mid⟩ := step
    simp [Functor.map, StateT.map, Bind.bind, Except.bind, pure, Except.pure, h]
    grind

theorem pure_eq_ok {c c' : Cursor} {x y : α} :
    (pure x : Reader α) c = .ok (y, c') ↔ x = y ∧ c = c' := by
  show Except.ok (x, c) = Except.ok (y, c') ↔ _
  rw [Except.ok.injEq, Prod.mk.injEq]

theorem except_bind_eq_ok {ε : Type} {x : Except ε α} {f : α → Except ε β} {b : β} :
    (x >>= f) = .ok b ↔ ∃ a, x = .ok a ∧ f a = .ok b := by
  cases x <;> simp [bind, Except.bind]

theorem except_pure_eq_ok {ε : Type} {a b : α} : (pure a : Except ε α) = .ok b ↔ a = b := by
  simp [pure, Except.pure]

theorem except_map_eq_ok {ε : Type} {x : Except ε α} {f : α → β} {b : β} :
    x.map f = .ok b ↔ ∃ a, x = .ok a ∧ f a = b := by
  cases x <;> simp [Except.map]

/-- A reader that never gives a value. -/
def Stuck (r : Reader α) : Prop := ∀ c x, r c ≠ .ok x

theorem stuck_failNext (fault : Fault) : Stuck (failNext fault : Reader α) := by
  intro c x h
  cases h

theorem stuck_mismatch (m : Mismatch) : Stuck (mismatch m : Reader α) := by
  intro c x h
  cases h

theorem Stuck.bind (h : ∀ x, Stuck (f x)) : Stuck (r >>= f) := by
  rintro c ⟨y, c'⟩ e
  obtain ⟨x, mid, _, e⟩ := bind_eq_ok.mp e
  exact h x mid _ e

/-! ### White space and single bytes -/

/-- White space has been passed: the text ends or goes on with another byte. -/
def AtToken (s : Bytes) : Prop := ∀ b ∈ s.head?, isSpace b = false

theorem atToken_nil : AtToken [] := by
  simp [AtToken]

theorem atToken_cons {b : UInt8} (token : isSpace b = false) (s : Bytes) : AtToken (b :: s) := by
  simpa [AtToken] using token

theorem Grammar.Blank.eq_of_atToken (h : Blank s a) (stop : AtToken s) : a = s := by
  cases h with
  | nil => rfl
  | cons space _ => simp [stop _ rfl] at space

theorem skipSpace_cons (n : Nat) (b : UInt8) (s : Bytes) :
    Cursor.skipSpace ⟨n, b :: s⟩
      = if isSpace b then Cursor.skipSpace ⟨n + 1, s⟩ else ⟨n, b :: s⟩ := rfl

theorem skipSpace_of_blank (h : Blank s a) (stop : AtToken a) (n : Nat) :
    ∃ m, Cursor.skipSpace ⟨n, s⟩ = ⟨m, a⟩ := by
  induction h generalizing n with
  | nil s =>
    cases s with
    | nil => exact ⟨n, rfl⟩
    | cons b s => exact ⟨n, by simp [skipSpace_cons, stop b rfl]⟩
  | cons space _ ih =>
    obtain ⟨m, h⟩ := ih stop (n + 1)
    exact ⟨m, by rw [skipSpace_cons, if_pos space, h]⟩

theorem blank_skipSpace (n : Nat) (s : Bytes) :
    Blank s (Cursor.skipSpace ⟨n, s⟩).rest ∧ AtToken (Cursor.skipSpace ⟨n, s⟩).rest := by
  induction s generalizing n with
  | nil => exact ⟨.nil _, atToken_nil⟩
  | cons b s ih =>
    rw [skipSpace_cons]
    by_cases space : isSpace b = true
    · rw [if_pos space]
      exact ⟨.cons space (ih (n + 1)).1, (ih (n + 1)).2⟩
    · rw [if_neg space]
      refine ⟨.nil _, fun x hx => ?_⟩
      obtain rfl : b = x := by simpa using hx
      simpa using space

theorem Ends.peekToken {f : Option UInt8 → Reader β} (before : Blank s a) (stop : AtToken a)
    (next : Ends (f a.head?) a outcome') : Ends (peekToken >>= f) s outcome' := by
  intro n
  obtain ⟨m, h⟩ := skipSpace_of_blank before stop n
  have step : (Reader.peekToken >>= f) ⟨n, s⟩ = f a.head? ⟨m, a⟩ := by
    simp [Bind.bind, StateT.bind, Except.bind, Reader.peekToken, h]
  rw [step]
  exact next m

theorem peekToken_bind_eq_ok {f : Option UInt8 → Reader β} {n : Nat} {c : Cursor} {y : β}
    (h : (peekToken >>= f) ⟨n, s⟩ = .ok (y, c)) :
    ∃ m a, Blank s a ∧ AtToken a ∧ f a.head? ⟨m, a⟩ = .ok (y, c) :=
  ⟨_, _, (blank_skipSpace n s).1, (blank_skipSpace n s).2, h⟩

theorem Ends.skip {g : Unit → Reader β} {b : UInt8} (next : Ends (g ()) s outcome') :
    Ends (skip >>= g) (b :: s) outcome' :=
  fun n => next (n + 1)

theorem skip_bind_cons {g : Unit → Reader β} (n : Nat) (b : UInt8) (s : Bytes) :
    (skip >>= g) ⟨n, b :: s⟩ = g () ⟨n + 1, s⟩ := rfl

theorem reads_word (w rest : Bytes) : Reads (word w) (w ++ rest) () rest := by
  induction w with
  | nil => exact reads_pure () rest
  | cons b w ih =>
    intro n
    obtain ⟨m, h⟩ := ih (n + 1)
    refine ⟨m, ?_⟩
    rw [← h, List.cons_append, word]
    simp [Bind.bind, StateT.bind, Except.bind, next?]

theorem word_eq_ok {w : Bytes} {n : Nat} {c : Cursor} (h : word w ⟨n, s⟩ = .ok ((), c)) :
    s = w ++ c.rest := by
  induction w generalizing n s with
  | nil =>
    obtain ⟨_, rfl⟩ := pure_eq_ok.mp h
    rfl
  | cons expected w ih =>
    cases s with
    | nil => cases h
    | cons b s =>
      by_cases e : b = expected
      · subst e
        have h : word w ⟨n + 1, s⟩ = .ok ((), c) := by
          simpa [word, Bind.bind, StateT.bind, Except.bind, next?] using h
        rw [List.cons_append, ← ih h]
      · simp [word, Bind.bind, StateT.bind, Except.bind, next?, e, failHere] at h

/-- A word behind its first letter. -/
theorem skip_word_eq_ok {w : Bytes} {x y : α} {n : Nat} {b : UInt8} {c : Cursor}
    (h : (skip >>= fun _ => word w >>= fun _ => (pure x : Reader α)) ⟨n, b :: s⟩ = .ok (y, c)) :
    s = w ++ c.rest ∧ x = y := by
  rw [skip_bind_cons] at h
  obtain ⟨_, mid, taken, last⟩ := bind_eq_ok.mp h
  obtain ⟨rfl, rfl⟩ := pure_eq_ok.mp last
  exact ⟨word_eq_ok taken, rfl⟩

/-! ### Whole texts -/

theorem run_of_reads {x : α} (h : Reads r s x rest) (after : Blank rest []) :
    r.run s = .ok x := by
  obtain ⟨m, h⟩ := h 0
  obtain ⟨k, stop⟩ := skipSpace_of_blank after atToken_nil m
  simp [Reader.run, Cursor.ofBytes, bind, Except.bind, h, peekToken, stop]

theorem run_of_refuses (h : Refuses r s) : ∃ m k, r.run s = .error ⟨.mismatch m, k⟩ := by
  obtain ⟨m, k, h⟩ := h 0
  exact ⟨m, k, by simp [Reader.run, Cursor.ofBytes, bind, Except.bind, h]⟩

/-- A text that was read has nothing behind its value but white space. -/
theorem run_eq_ok {x : α} (h : r.run s = .ok x) :
    ∃ c, r ⟨0, s⟩ = .ok (x, c) ∧ Blank c.rest [] := by
  cases hr : r ⟨0, s⟩ with
  | error e => simp [Reader.run, Cursor.ofBytes, bind, Except.bind, hr] at h
  | ok result =>
    obtain ⟨y, c⟩ := result
    obtain ⟨before, _⟩ := blank_skipSpace c.offset c.rest
    simp only [Reader.run, Cursor.ofBytes, bind, Except.bind, hr, peekToken] at h
    cases hc : (Cursor.skipSpace ⟨c.offset, c.rest⟩).rest with
    | nil =>
      rw [hc] at before
      simp only [hc, List.head?_nil, Except.ok.injEq] at h
      exact ⟨c, by rw [h], before⟩
    | cons b rest => simp [hc] at h

end TargetQuery.Json
