import TargetQuery.Proofs.Json.Reading

/-!
# Texts that are cut off

What a reader makes of a text that is cut off, against what it makes of the whole. As long as no
more bytes are asked for, the cut makes no difference; and when the text is well-formed up to the
cut, the fault that is noticed there lies at its end.
-/

namespace TargetQuery.Json

open Grammar Reader

variable {α β : Type}

/-- The outcomes of reading the text `p` and of reading `p ++ q`, from the offset `n` on. A value
that is `loose` may be read up to the cut and still go on behind it, but not with white space. -/
inductive Agrees (loose : α → Prop) (n : Nat) (p q : Bytes) :
    Except Error (α × Cursor) → Except Error (α × Cursor) → Prop
  /-- The value was read before the cut. -/
  | same {a : α} {u w : Bytes} : p = u ++ w →
      Agrees loose n p q (.ok (a, ⟨n + u.length, w⟩)) (.ok (a, ⟨n + u.length, w ++ q⟩))
  /-- The value was read up to the cut. -/
  | touching {a : α} {y : Except Error (α × Cursor)} : loose a →
      (Blank q [] → y = .ok (a, ⟨n + p.length, q⟩)) →
      Agrees loose n p q (.ok (a, ⟨n + p.length, []⟩)) y
  /-- More than white space is missing. -/
  | short {f : Fault} {y : Except Error (α × Cursor)} : (Blank q [] → ∃ e, y = .error e) →
      Agrees loose n p q (.error ⟨.fault f, n + p.length⟩) y
  /-- The problem does not lie in the cut. -/
  | wrong {e e' : Error} : Agrees loose n p q (.error e) (.error e')

/-- No value. -/
def never (_ : α) : Prop := False

/-- What the reader gives does not depend on a cut, up to values that are loose. -/
def Steady (loose : α → Prop) (r : Reader α) : Prop :=
  ∀ n p q, Agrees loose n p q (r ⟨n, p⟩) (r ⟨n, p ++ q⟩)

/-- The reader is steady in front of a byte. -/
def SteadyFront (loose : α → Prop) (r : Reader α) : Prop :=
  ∀ n b p q, Agrees loose n (b :: p) q (r ⟨n, b :: p⟩) (r ⟨n, b :: (p ++ q)⟩)

/-- At the end of the text there is a fault. -/
def Starved (r : Reader α) : Prop := ∀ n, ∃ f, r ⟨n, []⟩ = .error ⟨.fault f, n⟩

/-- White space is not enough: there is a fault at its end. -/
def Hungry (r : Reader α) : Prop :=
  ∀ n q, Blank q [] → ∃ f, r ⟨n, q⟩ = .error ⟨.fault f, n + q.length⟩

variable {loose : α → Prop} {loose' : β → Prop} {r : Reader α} {f g : α → Reader β}

/-! ### Outcomes -/

/-- What agrees behind some bytes agrees with these bytes in front. -/
theorem Agrees.shift {n : Nat} {u w q : Bytes} {x y : Except Error (α × Cursor)}
    (h : Agrees loose (n + u.length) w q x y) : Agrees loose n (u ++ w) q x y := by
  have length : n + u.length + w.length = n + (u ++ w).length := by
    rw [List.length_append, Nat.add_assoc]
  cases h with
  | @same a v w e =>
    have offset : n + u.length + v.length = n + (u ++ v).length := by
      rw [List.length_append, Nat.add_assoc]
    rw [offset]
    exact .same (by rw [e, List.append_assoc])
  | touching hl h =>
    rw [length] at h ⊢
    exact .touching hl h
  | short h =>
    rw [length]
    exact .short h
  | wrong => exact .wrong

theorem Agrees.map {n : Nat} {p q : Bytes} {x y : Except Error (α × Cursor)}
    (h : Agrees loose n p q x y) (g : α → β) (keep : ∀ a, loose a → loose' (g a)) :
    Agrees loose' n p q (x.map fun s => (g s.1, s.2)) (y.map fun s => (g s.1, s.2)) := by
  cases h with
  | same e => exact .same e
  | touching hl h =>
    refine .touching (keep _ hl) fun blank => ?_
    rw [h blank]
    rfl
  | short h =>
    refine .short fun blank => ?_
    obtain ⟨e, he⟩ := h blank
    exact ⟨e, by rw [he]; rfl⟩
  | wrong => exact .wrong

/-- A sequence agrees if its parts do. Behind a loose value more than white space must follow. -/
theorem Agrees.bind {r r' : Reader α} {n : Nat} {p q : Bytes}
    (h : Agrees loose n p q (r ⟨n, p⟩) (r' ⟨n, p ++ q⟩))
    (next : ∀ a u w, p = u ++ w → r ⟨n, p⟩ = .ok (a, ⟨n + u.length, w⟩) →
      Agrees loose' (n + u.length) w q (f a ⟨n + u.length, w⟩) (g a ⟨n + u.length, w ++ q⟩))
    (hungry : ∀ a, loose a → r ⟨n, p⟩ = .ok (a, ⟨n + p.length, []⟩) →
      Starved (f a) ∧ Hungry (g a)) :
    Agrees loose' n p q ((r >>= f) ⟨n, p⟩) ((r' >>= g) ⟨n, p ++ q⟩) := by
  show Agrees loose' n p q (r ⟨n, p⟩ >>= fun s => f s.1 s.2)
    (r' ⟨n, p ++ q⟩ >>= fun s => g s.1 s.2)
  generalize r ⟨n, p⟩ = x at h next hungry ⊢
  generalize r' ⟨n, p ++ q⟩ = y at h ⊢
  cases h with
  | @same a u w e =>
    subst e
    exact (next a u w rfl rfl).shift
  | @touching a y hl h =>
    obtain ⟨starved, hungry⟩ := hungry a hl rfl
    obtain ⟨fault, stop⟩ := starved (n + p.length)
    have left : (Except.ok (a, ⟨n + p.length, []⟩) >>= fun s : α × Cursor => f s.1 s.2)
      = .error ⟨.fault fault, n + p.length⟩ := stop
    rw [left]
    refine .short fun blank => ?_
    obtain ⟨fault', more⟩ := hungry (n + p.length) q blank
    rw [h blank]
    exact ⟨_, more⟩
  | short h =>
    refine .short fun blank => ?_
    obtain ⟨e, he⟩ := h blank
    exact ⟨e, by rw [he]; rfl⟩
  | wrong => exact .wrong

/-! ### Readers -/

theorem steady_pure (a : α) : Steady loose (pure a : Reader α) :=
  fun _ p _ => .same (u := []) (w := p) rfl

theorem Stuck.steady (h : Stuck r) : Steady loose r := by
  intro n p q
  cases hp : r ⟨n, p⟩ with
  | ok x => exact absurd hp (h _ _)
  | error e =>
    cases hq : r ⟨n, p ++ q⟩ with
    | ok x => exact absurd hq (h _ _)
    | error e' => exact .wrong

theorem Steady.map (h : Steady loose r) (g : α → β) (keep : ∀ a, loose a → loose' (g a)) :
    Steady loose' (g <$> r) :=
  fun n p q => (h n p q).map g keep

theorem Steady.map_never (h : Steady never r) (g : α → β) : Steady never (g <$> r) :=
  h.map g fun _ => id

theorem Steady.bind (h : Steady never r) (next : ∀ a, Steady loose' (f a)) :
    Steady loose' (r >>= f) :=
  fun n p q => (h n p q).bind (fun a _ w _ _ => next a _ w q) fun _ => False.elim

theorem Steady.front (h : Steady loose r) : SteadyFront loose r :=
  fun n b p q => h n (b :: p) q

theorem steadyFront_skip {k : Unit → Reader β} (h : Steady loose' (k ())) :
    SteadyFront loose' (skip >>= k) :=
  fun n b p q => (h (n + 1) p q).shift (u := [b])

theorem SteadyFront.bind (h : SteadyFront never r) (next : ∀ a, Steady loose' (f a)) :
    SteadyFront loose' (r >>= f) :=
  fun n b p q => (h n b p q).bind (fun a _ w _ _ => next a _ w q) fun _ => False.elim

theorem Hungry.starved (h : Hungry r) : Starved r :=
  fun n => h n [] (.nil [])

theorem Hungry.bind (h : Hungry r) (f : α → Reader β) : Hungry (r >>= f) := by
  intro n q blank
  obtain ⟨fault, stop⟩ := h n q blank
  exact ⟨fault, by simp [Bind.bind, StateT.bind, Except.bind, stop]⟩

theorem Hungry.map (h : Hungry r) (g : α → β) : Hungry (g <$> r) := by
  intro n q blank
  obtain ⟨fault, stop⟩ := h n q blank
  exact ⟨fault, by simp [Functor.map, StateT.map, Bind.bind, Except.bind, stop]⟩

theorem starved_failNext (fault : Fault) : Starved (failNext fault : Reader α) :=
  fun _ => ⟨fault, rfl⟩

/-! ### White space -/

/-- White space up to a byte, or up to the cut. -/
theorem skipSpace_append (n : Nat) (p q : Bytes) :
    (∃ u b w, p = u ++ b :: w ∧ Cursor.skipSpace ⟨n, p⟩ = ⟨n + u.length, b :: w⟩ ∧
        Cursor.skipSpace ⟨n, p ++ q⟩ = ⟨n + u.length, b :: (w ++ q)⟩) ∨
      (Cursor.skipSpace ⟨n, p⟩ = ⟨n + p.length, []⟩ ∧
        Cursor.skipSpace ⟨n, p ++ q⟩ = Cursor.skipSpace ⟨n + p.length, q⟩) := by
  induction p generalizing n with
  | nil => exact .inr ⟨rfl, rfl⟩
  | cons b p ih =>
    rw [List.cons_append, skipSpace_cons, skipSpace_cons]
    by_cases space : isSpace b = true
    · simp only [space, if_true]
      have shift : ∀ k, n + 1 + k = n + (k + 1) := by omega
      rcases ih (n + 1) with ⟨u, x, w, rfl, hp, hq⟩ | ⟨hp, hq⟩
      · exact .inl ⟨b :: u, x, w, rfl, by rw [hp, shift]; rfl, by rw [hq, shift]; rfl⟩
      · exact .inr ⟨by rw [hp, shift]; rfl, by rw [hq, shift]; rfl⟩
    · simp only [space]
      exact .inl ⟨[], b, p, rfl, rfl, rfl⟩

theorem skipSpace_blank (n : Nat) {q : Bytes} (blank : Blank q []) :
    Cursor.skipSpace ⟨n, q⟩ = ⟨n + q.length, []⟩ := by
  generalize hr : ([] : Bytes) = rest at blank
  induction blank generalizing n with
  | nil s =>
    subst hr
    rfl
  | @cons b s rest space _ ih =>
    rw [skipSpace_cons, if_pos space, ih (n + 1) hr, ← hr]
    congr 1
    rw [List.length_cons]
    omega

/-- A reader that looks at the next token is steady if it has a fault without one and is steady in
front of every byte. -/
theorem steady_peekToken {k : Option UInt8 → Reader β} (starved : Starved (k none))
    (front : ∀ b, SteadyFront loose' (k (some b))) : Steady loose' (peekToken >>= k) := by
  intro n p q
  show Agrees loose' n p q (k _ (Cursor.skipSpace ⟨n, p⟩)) (k _ (Cursor.skipSpace ⟨n, p ++ q⟩))
  rcases skipSpace_append n p q with ⟨u, b, w, rfl, hp, hq⟩ | ⟨hp, hq⟩
  · rw [hp, hq]
    exact (front b _ b w q).shift
  · rw [hp, hq]
    obtain ⟨fault, stop⟩ := starved (n + p.length)
    have left : k (List.head? []) ⟨n + p.length, []⟩ = .error ⟨.fault fault, n + p.length⟩ := stop
    rw [left]
    refine .short fun blank => ?_
    rw [skipSpace_blank _ blank]
    obtain ⟨fault', more⟩ := starved (n + p.length + q.length)
    exact ⟨_, more⟩

theorem hungry_peekToken {k : Option UInt8 → Reader β} (starved : Starved (k none)) :
    Hungry (peekToken >>= k) := by
  intro n q blank
  obtain ⟨fault, stop⟩ := starved (n + q.length)
  refine ⟨fault, ?_⟩
  rw [← stop]
  show k _ (Cursor.skipSpace ⟨n, q⟩) = _
  rw [skipSpace_blank n blank]
  rfl

/-! ### Whole texts -/

theorem blank_iff {s : Bytes} : Blank s [] ↔ s.all isSpace = true := by
  rw [List.all_eq_true]
  constructor
  · intro blank
    generalize hr : ([] : Bytes) = rest at blank
    induction blank with
    | nil s => simp [← hr]
    | cons space _ ih => exact List.forall_mem_cons.mpr ⟨space, ih hr⟩
  · intro spaces
    induction s with
    | nil => exact .nil []
    | cons b s ih =>
      rw [List.forall_mem_cons] at spaces
      exact .cons spaces.1 (ih spaces.2)

/-- Only white space may be left behind the value. -/
theorem run_of_leftover {s : Bytes} {a : α} {c : Cursor} (h : r ⟨0, s⟩ = .ok (a, c)) :
    (Blank c.rest [] ∧ r.run s = .ok a) ∨
      (¬ Blank c.rest [] ∧ ∃ f k, r.run s = .error ⟨.fault f, k⟩) := by
  by_cases blank : Blank c.rest []
  · have look : peekToken c = .ok (none, ⟨c.offset + c.rest.length, []⟩) := by
      simp [peekToken, skipSpace_blank c.offset blank]
    refine .inl ⟨blank, ?_⟩
    simp only [Reader.run, Cursor.ofBytes, bind, Except.bind, h, look]
  · obtain ⟨before, _⟩ := blank_skipSpace c.offset c.rest
    cases hc : Cursor.skipSpace c with
    | mk k rest =>
      cases rest with
      | nil =>
        rw [hc] at before
        exact absurd before blank
      | cons b rest =>
        have look : peekToken c = .ok (some b, ⟨k, b :: rest⟩) := by simp [peekToken, hc]
        refine .inr ⟨blank, .trailingText, k + 1, ?_⟩
        simp only [Reader.run, Cursor.ofBytes, bind, Except.bind, h, look]
        rfl

/-- A text that is read may lose white space at its end, and with anything else cut off there is a
fault at the cut. -/
theorem Steady.run_prefix (steady : Steady never r) {p q : Bytes} {a : α}
    (h : r.run (p ++ q) = .ok a) :
    (Blank q [] ∧ r.run p = .ok a) ∨
      (¬ Blank q [] ∧ ∃ f, r.run p = .error ⟨.fault f, p.length⟩) := by
  obtain ⟨c, read, after⟩ := run_eq_ok h
  have agrees := steady 0 p q
  rw [read] at agrees
  cases hp : r ⟨0, p⟩ with
  | ok result =>
    rw [hp] at agrees
    cases agrees with
    | same e =>
      rw [blank_iff, List.all_append, Bool.and_eq_true, ← blank_iff, ← blank_iff] at after
      rcases run_of_leftover hp with ⟨_, run⟩ | ⟨more, _⟩
      · exact .inl ⟨after.2, run⟩
      · exact absurd after.1 more
    | touching hl => exact hl.elim
  | error e =>
    rw [hp] at agrees
    cases agrees with
    | @short f _ missing =>
      refine .inr ⟨fun blank => ?_, f, ?_⟩
      · obtain ⟨e, he⟩ := missing blank
        cases he
      · rw [Reader.run, Cursor.ofBytes, hp, Nat.zero_add]
        rfl

/-- A text that is read may be followed by white space, and by nothing else. -/
theorem Steady.run_append (steady : Steady never r) {s : Bytes} {a : α} (h : r.run s = .ok a)
    (t : Bytes) :
    (Blank t [] ∧ r.run (s ++ t) = .ok a) ∨
      (¬ Blank t [] ∧ ∃ f k, r.run (s ++ t) = .error ⟨.fault f, k⟩) := by
  obtain ⟨c, read, after⟩ := run_eq_ok h
  have agrees := steady 0 s t
  rw [read] at agrees
  generalize hst : r ⟨0, s ++ t⟩ = y at agrees
  cases agrees with
  | same e =>
    have leftover := run_of_leftover hst
    rw [blank_iff, List.all_append, Bool.and_eq_true, ← blank_iff, ← blank_iff] at leftover
    rcases leftover with ⟨⟨_, blank⟩, run⟩ | ⟨more, fault⟩
    · exact .inl ⟨blank, run⟩
    · exact .inr ⟨fun blank => more ⟨after, blank⟩, fault⟩
  | touching hl => exact hl.elim

end TargetQuery.Json
