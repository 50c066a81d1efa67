import TargetQuery.Proofs.Json.ListReading

/-!
# Readers of objects

What a fold over the members of an object makes of them, given what its step makes of one member.
-/

namespace TargetQuery.Json

open Grammar Reader

variable {σ : Type} {s rest : Bytes}

/-! ### Names and colons -/

/-- A name is a string in quotes, which is neither white space nor a closing brace. -/
theorem quoted_head {name : String} {s rest : Bytes} (h : Quoted (some name) s rest) :
    ∃ more, s = Ascii.doubleQuote :: more ∧ Chars name.toList more rest := by
  cases h with
  | strict h => exact ⟨_, rfl, h⟩

theorem reads_name {name : String} {s rest : Bytes} (h : Chars name.toList s rest) :
    Reads (skip >>= fun _ => some <$> stringToken) (Ascii.doubleQuote :: s) (some name) rest :=
  .skip (Reads.map some (stringToken_of_chars h))

theorem reads_nameFollows_some {first : Bool} {l a c : Bytes} {name : String}
    (lead : Lead first s l) (before : Blank l a) (quoted : Quoted (some name) a c) :
    Reads (nameFollows first) s (some name) c := by
  obtain ⟨more, rfl, chars⟩ := quoted_head quoted
  have stop : AtToken (Ascii.doubleQuote :: more) := atToken_cons rfl _
  cases first with
  | true =>
    obtain rfl : s = l := lead
    exact Ends.peekToken before stop (reads_name chars)
  | false =>
    refine Ends.peekToken (lead : Blank s (Ascii.comma :: l)) (atToken_cons rfl _) ?_
    exact Ends.skip (Ends.peekToken before stop (reads_name chars))

theorem reads_nameFollows_none (first : Bool) (h : Blank s (Ascii.closeBrace :: rest)) :
    Reads (nameFollows first) s none (Ascii.closeBrace :: rest) :=
  Ends.peekToken h (atToken_cons rfl _) (reads_pure none _)

theorem name_eq_ok {n : Nat} {s : Bytes} {name : Option String} {c : Cursor}
    (h : (skip >>= fun _ => some <$> stringToken) ⟨n, Ascii.doubleQuote :: s⟩ = .ok (name, c)) :
    ∃ t, name = some t ∧ Quoted (some t) (Ascii.doubleQuote :: s) c.rest := by
  rw [skip_bind_cons] at h
  obtain ⟨t, read, rfl⟩ := map_eq_ok.mp h
  exact ⟨t, rfl, .strict (chars_of_stringToken read)⟩

/-- The reader knows from the next byte whether a name follows. -/
theorem nameFollows_eq_ok {first : Bool} {n : Nat} {name : Option String} {c : Cursor}
    (h : nameFollows first ⟨n, s⟩ = .ok (name, c)) :
    match name with
    | some name => ∃ l a, Lead first s l ∧ Blank l a ∧ Quoted (some name) a c.rest
    | none => ∃ rest, c.rest = Ascii.closeBrace :: rest ∧ Blank s c.rest := by
  obtain ⟨m, a, before, _, h⟩ := peekToken_bind_eq_ok h
  cases a with
  | nil => exact absurd h (stuck_failNext _ _ _)
  | cons b a =>
    simp only [List.head?_cons] at h
    split at h
    · next e =>
      obtain rfl := eq_of_beq e
      obtain ⟨rfl, rfl⟩ := pure_eq_ok.mp h
      exact ⟨a, rfl, before⟩
    split at h
    · next isFirst =>
      split at h
      · next e =>
        obtain rfl := eq_of_beq e
        obtain ⟨t, rfl, quoted⟩ := name_eq_ok h
        exact ⟨s, _, by simp [Lead, isFirst], before, quoted⟩
      · exact absurd h (stuck_failNext _ _ _)
    split at h
    · next notFirst e =>
      obtain rfl := eq_of_beq e
      rw [skip_bind_cons] at h
      obtain ⟨k, d, between, _, h⟩ := peekToken_bind_eq_ok h
      cases d with
      | nil => exact absurd h (stuck_failNext _ _ _)
      | cons x d =>
        simp only [List.head?_cons] at h
        split at h
        · next e =>
          obtain rfl := eq_of_beq e
          obtain ⟨t, rfl, quoted⟩ := name_eq_ok h
          exact ⟨a, _, by simpa [Lead, notFirst] using before, between, quoted⟩
        split at h
        · exact absurd h (stuck_failNext _ _ _)
        · exact absurd h (stuck_failNext _ _ _)
    · exact absurd h (stuck_failNext _ _ _)

theorem reads_colonToken (h : Blank s (Ascii.colon :: rest)) : Reads colonToken s () rest :=
  Ends.peekToken h (atToken_cons rfl _) fun n => ⟨n + 1, rfl⟩

theorem colonToken_eq_ok {n : Nat} {c : Cursor} (h : colonToken ⟨n, s⟩ = .ok ((), c)) :
    Blank s (Ascii.colon :: c.rest) := by
  obtain ⟨m, a, before, _, h⟩ := peekToken_bind_eq_ok h
  cases a with
  | nil => exact absurd h (stuck_failNext _ _ _)
  | cons b a =>
    simp only [List.head?_cons] at h
    split at h
    · next e =>
      obtain rfl := eq_of_beq e
      cases h
      exact before
    · exact absurd h (stuck_failNext _ _ _)

/-! ### Folds -/

/-- What a member means to a fold: the next state, if it has one. -/
abbrev MemberMeaning (σ : Type) := σ → String → Tree → Option σ

/-- What all members mean to a fold. Every name must be text. -/
def foldTree (meaning : MemberMeaning σ) (d : σ) (members : List (Option String × Tree)) :
    Option σ :=
  members.foldlM (fun d m => m.1 >>= fun name => meaning d name m.2) d

theorem foldTree_cons (meaning : MemberMeaning σ) (d : σ) (name : String) (t : Tree)
    (members : List (Option String × Tree)) : foldTree meaning d ((some name, t) :: members)
      = meaning d name t >>= fun d => foldTree meaning d members := rfl

/-- The step decides about a member by what it means. It starts behind the name. -/
def ExactStep (step : σ → String → Reader (Except Mismatch σ)) (meaning : MemberMeaning σ)
    (kind : String → Tree → Prop) : Prop :=
  ∀ d name t s a b rest, t.Legible → kind name t → Blank s (Ascii.colon :: a) → Blank a b →
    Grammar.Value t b rest → Delimited rest → Ends (step d name) s (Judges (meaning d name t) rest)

/-- A step that goes on has taken a colon and a value with the meaning. -/
def SoundStep (step : σ → String → Reader (Except Mismatch σ)) (meaning : MemberMeaning σ) :
    Prop :=
  ∀ d name n s d' c, step d name ⟨n, s⟩ = Except.ok (Except.ok d', c) →
    ∃ t a b, Blank s (Ascii.colon :: a) ∧ Blank a b ∧ Grammar.Value t b c.rest ∧
      meaning d name t = some d'

variable {step : σ → String → Reader (Except Mismatch σ)} {meaning : MemberMeaning σ}
  {kind : String → Tree → Prop}

/-- A mismatch ends the fold. -/
theorem Ends.reject {r : Reader (Except Mismatch σ)} (h : Ends r s Rejected)
    {f : Except Mismatch σ → Reader (Except Mismatch σ)}
    (stop : ∀ m, f (.error m) = pure (.error m)) : Ends (r >>= f) s Rejected := by
  intro n
  rcases h n with ⟨m, k, e⟩ | ⟨m, c, e⟩
  · exact .inl ⟨m, k, by simp [bind, StateT.bind, Except.bind, e]⟩
  · refine .inr ⟨m, c, ?_⟩
    simp only [bind, StateT.bind, Except.bind, e, stop]
    rfl

/-- Members are folded one by one, and the verdict is that of the fold over their trees. -/
theorem judges_foldMembers (exact : ExactStep step meaning kind) (first : Bool)
    {members : List (Option String × Tree)} (d : σ) (named : ∀ m ∈ members, m.1.isSome = true)
    (legible : ∀ m ∈ members, m.2.Legible)
    (kinds : ∀ name t, (some name, t) ∈ members → kind name t)
    (h : MembersFrom first members s rest) {fuel : Nat} (enough : members.length < fuel) :
    Ends (foldMembers step fuel first d) s
      (Judges (foldTree meaning d members) (Ascii.closeBrace :: rest)) := by
  induction members generalizing first s fuel d with
  | nil =>
    obtain ⟨fuel, rfl⟩ := Nat.exists_eq_add_of_lt enough
    have none := reads_nameFollows_none first (membersFrom_nil_iff.mp h)
    exact none.bind (reads_pure (Except.ok d) _)
  | cons m members ih =>
    obtain ⟨fuel, rfl⟩ := Nat.exists_eq_add_of_lt enough
    obtain ⟨name, t⟩ := m
    rw [List.forall_mem_cons] at named legible
    obtain ⟨name, rfl⟩ := Option.isSome_iff_exists.mp named.1
    obtain ⟨l, a, b, c, e, f, lead, before, quoted, colon, between, value, more⟩ :=
      membersFrom_cons_iff.mp h
    have here := exact d name t b c e f legible.1 (kinds name t List.mem_cons_self) colon between
      value more.delimited
    refine (reads_nameFollows_some lead before quoted).bind ?_
    rw [foldTree_cons]
    cases hd : meaning d name t with
    | none =>
      rw [hd] at here
      exact Ends.reject here fun _ => rfl
    | some d' =>
      rw [hd] at here
      refine Reads.bind here ?_
      have kinds := fun name t h => kinds name t (List.mem_cons_of_mem _ h)
      exact ih false d' named.2 legible.2 kinds more (by simp only [List.length_cons]; omega)

/-- Members that were folded stand in the text, one behind the other. -/
theorem foldMembers_eq_ok (sound : SoundStep step meaning) (first : Bool) {fuel n : Nat}
    {d d' : σ} {c : Cursor}
    (h : foldMembers step fuel first d ⟨n, s⟩ = Except.ok (Except.ok d', c)) :
    ∃ members rest, c.rest = Ascii.closeBrace :: rest ∧ MembersFrom first members s rest ∧
      foldTree meaning d members = some d' := by
  induction fuel generalizing first n s d with
  | zero => exact absurd h (stuck_failNext _ _ _)
  | succ fuel ih =>
    obtain ⟨name, ⟨m, a⟩, named, next⟩ := bind_eq_ok.mp h
    have named := nameFollows_eq_ok named
    cases name with
    | none =>
      obtain ⟨rest, rfl, before⟩ := named
      obtain ⟨same, rfl⟩ := pure_eq_ok.mp next
      obtain rfl := Except.ok.inj same
      exact ⟨[], rest, rfl, membersFrom_nil_iff.mpr before, rfl⟩
    | some name =>
      obtain ⟨l, q, lead, before, quoted⟩ := named
      obtain ⟨verdict, ⟨k, b⟩, stepped, next⟩ := bind_eq_ok.mp next
      cases verdict with
      | error m => cases (pure_eq_ok.mp next).1
      | ok d₁ =>
        obtain ⟨t, x, y, colon, between, value, meant⟩ := sound _ _ _ _ _ _ stepped
        obtain ⟨members, rest, e, more, folded⟩ := ih false next
        refine ⟨(some name, t) :: members, rest, e, ?_, ?_⟩
        · exact membersFrom_cons_iff.mpr
            ⟨l, q, a, x, y, b, lead, before, quoted, colon, between, value, more⟩
        · rw [foldTree_cons, meant]
          exact folded

end TargetQuery.Json
