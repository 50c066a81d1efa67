import TargetQuery.Json.Tagged
import TargetQuery.Proofs.Json.Keeping

/-!
# Readers of tagged values

What a tree stands for is a relation here, since the content of a tag may be read in its own way.
A reader is grounded in the relation if whatever it reads stands there, and it takes what the tree
stands for. For a tagged value this is followed member by member: a tag and its content come in
either order, and a content that comes first counts as what is kept of it.
-/

namespace TargetQuery.Json

open Grammar Reader

variable {α β σ : Type}

/-- What is read is what some value that stands there stands for. -/
def Grounded (r : Reader α) (stands : Tree → α → Prop) : Prop :=
  ∀ n s x c, r ⟨n, s⟩ = .ok (x, c) →
    ∃ t a, Blank s a ∧ Grammar.Value t a c.rest ∧ stands t x

theorem Sound.grounded {r : Reader α} {meaning : Tree → Option α} (h : Sound r meaning) :
    Grounded r fun t x => meaning t = some x :=
  h

theorem Grounded.mono {r : Reader α} {stands stands' : Tree → α → Prop} (h : Grounded r stands)
    (weaker : ∀ t x, stands t x → stands' t x) : Grounded r stands' := by
  intro n s x c run
  obtain ⟨t, a, before, value, here⟩ := h n s x c run
  exact ⟨t, a, before, value, weaker t x here⟩

theorem Grounded.map {r : Reader α} {stands : Tree → α → Prop} (h : Grounded r stands)
    (f : α → β) : Grounded (f <$> r) fun t y => ∃ x, stands t x ∧ f x = y := by
  intro n s y c run
  obtain ⟨x, run, same⟩ := map_eq_ok.mp run
  obtain ⟨t, a, before, value, here⟩ := h n s x c run
  exact ⟨t, a, before, value, x, here, same⟩

/-- A whole text that is read is a text of a value that stands for the result. -/
theorem Grounded.document {r : Reader α} {stands : Tree → α → Prop} (h : Grounded r stands)
    {s : Bytes} {x : α} (run : r.run s = .ok x) : ∃ t, Document t s ∧ stands t x := by
  obtain ⟨c, run, after⟩ := run_eq_ok run
  obtain ⟨t, a, before, value, here⟩ := h _ _ _ _ run
  exact ⟨t, .mk before value after, here⟩

theorem grounded_textValue (expected : String) :
    Grounded (textValue expected) fun t s => t = .text (some s) :=
  (sound_textValue expected).grounded.mono fun _ _ => Tree.text?_eq_some.mp

/-! ### Names -/

theorem grounded_unitValue : Grounded unitValue fun t _ => t = .null := by
  intro n s x c h
  obtain ⟨m, a, before, _, h⟩ := peekToken_bind_eq_ok h
  cases a with
  | nil => exact absurd h (stuck_failNext _ _ _)
  | cons b a =>
    simp only [List.head?_cons] at h
    split at h
    · next e =>
      obtain rfl := eq_of_beq e
      rw [skip_bind_cons] at h
      exact ⟨.null, _, word_eq_ok h ▸ before, .null _, rfl⟩
    · exact absurd h (stuck_mistyped _ _ _)

theorem takes_unitValue : Takes unitValue .null () := by
  intro s a rest before value delimited
  have stop := value.atToken
  cases value with
  | null => exact .peekToken before stop (.skip (reads_word ull rest))

/-- How a choice is written: as its name, or as an object with null under the name. -/
inductive Named (table : List (String × α)) (room : Nat) : Tree → α → Prop
  | text {name : String} {x : α} : table.lookup name = some x →
      Named table room (.text (some name)) x
  | object {name : String} {x : α} : 2 ≤ room → table.lookup name = some x →
      Named table room (.object [(some name, .null)]) x

variable {table : List (String × α)} {room : Nat}

theorem Named.exists_lookup {t : Tree} {x : α} (h : Named table room t x) :
    ∃ name, table.lookup name = some x := by
  cases h with
  | text listed => exact ⟨_, listed⟩
  | object _ listed => exact ⟨_, listed⟩

theorem reads_choose {name : String} {x : α} (listed : table.lookup name = some x) (s : Bytes) :
    Reads (demand (choose table name)) s x s := by
  rw [choose, listed]
  exact reads_pure x s

theorem choose_eq_ok {name : String} {x : α} {c c' : Cursor}
    (h : demand (choose table name) c = .ok (x, c')) : table.lookup name = some x ∧ c' = c := by
  rw [choose] at h
  cases listed : table.lookup name with
  | none =>
    rw [listed] at h
    exact absurd h (stuck_mismatch _ _ _)
  | some y =>
    rw [listed] at h
    obtain ⟨rfl, rfl⟩ := pure_eq_ok.mp h
    exact ⟨rfl, rfl⟩

theorem openBracket_enough {n : Nat} {s : Bytes} {result : Nat × Cursor}
    (h : openBracket room ⟨n, s⟩ = .ok result) : 2 ≤ room := by
  by_contra few
  rw [openBracket, if_pos (by omega)] at h
  exact absurd h (stuck_failNext _ _ _)

theorem quoted_of_value {name : String} {s rest : Bytes}
    (h : Grammar.Value (.text (some name)) s rest) : Quoted (some name) s rest := by
  cases h with
  | text h => exact h

theorem grounded_bareName : Grounded (bareName table) fun t x =>
    ∃ name, t = .text (some name) ∧ table.lookup name = some x := by
  intro n s x c h
  obtain ⟨name, ⟨m, a⟩, read, chosen⟩ := bind_eq_ok.mp h
  obtain ⟨listed, rfl⟩ := choose_eq_ok chosen
  obtain ⟨_, b, before, value, rfl⟩ := grounded_textValue _ _ _ _ _ read
  exact ⟨_, b, before, value, name, rfl, listed⟩

theorem takes_bareName {name : String} {x : α} (listed : table.lookup name = some x) :
    Takes (bareName table) (.text (some name)) x :=
  fun s a rest before value delimited =>
    Reads.bind (takes_textValue _ name s a rest before value delimited) (reads_choose listed rest)

/-- A choice that was read is named in the table. -/
theorem grounded_nameValue : Grounded (nameValue table room) (Named table room) := by
  intro n s x c h
  obtain ⟨m, a, before, stop, h⟩ := peekToken_bind_eq_ok h
  cases a with
  | nil => exact absurd h (stuck_failNext _ _ _)
  | cons b a =>
    simp only [List.head?_cons] at h
    split at h
    · next e =>
      obtain rfl := eq_of_beq e
      obtain ⟨_, ⟨_, _⟩, opened, inside⟩ := bind_eq_ok.mp h
      have enough := openBracket_enough opened
      obtain ⟨rfl, rfl⟩ := openBracket_eq_ok opened
      obtain ⟨name, ⟨_, _⟩, read, chosen⟩ := bind_eq_ok.mp inside
      obtain ⟨y, _, chosen, behindName⟩ := bind_eq_ok.mp chosen
      obtain ⟨listed, rfl⟩ := choose_eq_ok chosen
      obtain ⟨_, ⟨_, _⟩, colon, behindColon⟩ := bind_eq_ok.mp behindName
      obtain ⟨_, ⟨_, _⟩, unit, behindNull⟩ := bind_eq_ok.mp behindColon
      obtain ⟨_, d, after, _, close⟩ := peekToken_bind_eq_ok behindNull
      cases d with
      | nil => cases close
      | cons z d =>
        simp only [List.head?_cons] at close
        split at close
        · next e =>
          obtain rfl := eq_of_beq e
          rw [skip_bind_cons] at close
          obtain ⟨rfl, rfl⟩ := pure_eq_ok.mp close
          obtain ⟨_, q, lead, value, rfl⟩ := grounded_textValue _ _ _ _ _ read
          obtain ⟨_, _, between, null, rfl⟩ := grounded_unitValue _ _ _ _ unit
          refine ⟨_, _, before, .object (.cons (.last ?_)), .object enough listed⟩
          exact .mk lead (quoted_of_value value) (colonToken_eq_ok colon) (.mk between null after)
        · cases close
    split at h
    · obtain ⟨t, q, blank, value, name, rfl, listed⟩ := grounded_bareName _ _ _ _ h
      exact ⟨_, q, before.trans blank, value, .text listed⟩
    · exact absurd h (stuck_failNext _ _ _)

theorem takes_named {t : Tree} {x : α} (h : Named table room t x) :
    Takes (nameValue table room) t x := by
  cases h with
  | text listed => exact takes_nameValue listed room
  | object enough listed =>
    intro s a rest before value delimited
    have stop := value.atToken
    cases value with
    | object inside =>
      refine .peekToken before stop ((reads_openBracket enough _ _).bind ?_)
      have inside : MembersFrom true _ _ rest := inside
      obtain ⟨_, q, b, c, d, e, rfl, blank, quoted, colon, between, null, closes⟩ :=
        membersFrom_cons_iff.mp inside
      have inner := takes_textValue "variant identifier" _ _ _ _ blank (.text quoted)
        (colon.delimited (delimited_cons (by decide) _))
      refine inner.bind ((reads_choose listed b).bind ((reads_colonToken colon).bind ?_))
      have after := membersFrom_nil_iff.mp closes
      refine (takes_unitValue _ _ _ between null closes.delimited).bind ?_
      exact .peekToken after (atToken_cons rfl _) (.skip (reads_pure x _))

/-! ### Contents -/

theorem grounded_nothingValue (title : String) :
    Grounded (nothingValue title room) fun t _ => t = .null := by
  intro n s x c h
  obtain ⟨m, a, before, _, h⟩ := peekToken_bind_eq_ok h
  cases a with
  | nil => exact absurd h (stuck_failNext _ _ _)
  | cons b a =>
    simp only [List.head?_cons] at h
    split at h
    · next e =>
      obtain rfl := eq_of_beq e
      rw [skip_bind_cons] at h
      exact ⟨.null, _, word_eq_ok h ▸ before, .null _, rfl⟩
    -- A bracket is closed only for the sake of the message.
    split at h
    · obtain ⟨_, ⟨_, _⟩, _, inside⟩ := bind_eq_ok.mp h
      obtain ⟨_, verdict, _⟩ := enclosed_eq_ok closeList_closes inside
      cases verdict
    split at h
    · obtain ⟨_, ⟨_, _⟩, _, inside⟩ := bind_eq_ok.mp h
      obtain ⟨_, verdict, _⟩ := enclosed_eq_ok closeObject_closes inside
      cases verdict
    · obtain ⟨kept, mid, read, next⟩ := bind_eq_ok.mp h
      cases kept with
      | null =>
        obtain ⟨-, rfl⟩ := pure_eq_ok.mp next
        obtain ⟨t, q, blank, value, meant⟩ := sound_anyValue .none _ _ _ _ read
        exact ⟨t, q, before.trans blank, value, keptWith?_eq_null.mp meant⟩
      | _ => exact absurd next (stuck_mismatch _ _ _)

theorem takes_nothingValue (title : String) : Takes (nothingValue title room) .null () := by
  intro s a rest before value delimited
  have stop := value.atToken
  cases value with
  | null => exact .peekToken before stop (.skip (reads_word ull rest))

/-- What is kept of the value has a meaning for the content. -/
def Content.Kept (room : Nat) (content : Content α) (t : Tree) (x : α) : Prop :=
  ∃ b, t.kept? room = some b ∧ content.ofBuffered b = .ok x

theorem Content.kept_nothing {title : String} {y x : α} {t : Tree} :
    (Content.nothing title y).Kept room t x ↔ t = .null ∧ y = x := by
  constructor
  · rintro ⟨b, kept, same⟩
    cases b with
    | null =>
      cases same
      exact ⟨kept?_eq_null.mp kept, rfl⟩
    | _ => cases same
  · rintro ⟨rfl, rfl⟩
    exact ⟨.null, kept?_eq_null.mpr rfl, rfl⟩

theorem Content.grounded_nothing (title : String) (y : α) :
    Grounded ((Content.nothing title y).read room) ((Content.nothing title y).Kept room) := by
  intro n s x c h
  obtain ⟨_, mid, read, next⟩ := bind_eq_ok.mp h
  obtain ⟨rfl, rfl⟩ := pure_eq_ok.mp next
  obtain ⟨t, a, before, value, rfl⟩ := grounded_nothingValue _ _ _ _ _ read
  exact ⟨_, a, before, value, kept_nothing.mpr ⟨rfl, rfl⟩⟩

theorem Content.takes_nothing {title : String} {y x : α} {t : Tree}
    (h : (Content.nothing title y).Kept room t x) :
    Takes ((Content.nothing title y).read room) t x := by
  obtain ⟨rfl, rfl⟩ := kept_nothing.mp h
  intro s a rest before value delimited
  exact (takes_nothingValue title s a rest before value delimited).bind (reads_pure _ _)

/-- A content made of a string keeps that string. -/
theorem Content.kept_text {read : Nat → Reader α} {expected : String} {make : String → α}
    {t : Tree} {x : α} :
    (Content.value read fun b => b.textOf expected >>= fun s => pure (make s)).Kept room t x ↔
      ∃ s, t = .text (some s) ∧ make s = x := by
  constructor
  · rintro ⟨b, kept, took⟩
    obtain ⟨s, text, same⟩ := except_bind_eq_ok.mp took
    cases b with
    | text =>
      cases text
      exact ⟨s, kept?_eq_text.mp kept, except_pure_eq_ok.mp same⟩
    | _ => cases text
  · rintro ⟨s, rfl, rfl⟩
    exact ⟨.text s, kept?_eq_text.mpr rfl, rfl⟩

/-! ### Members -/

/-- Members that lead from one state to another, one after the other. -/
inductive Leads (step : σ → String → Tree → σ → Prop) :
    σ → List (Option String × Tree) → σ → Prop
  | nil (d : σ) : Leads step d [] d
  | cons {d d' d'' : σ} {name : String} {t : Tree} {more : List (Option String × Tree)} :
      step d name t d' → Leads step d' more d'' → Leads step d ((some name, t) :: more) d''

theorem Leads.stepsTake {step : σ → String → Tree → σ → Prop}
    {r : σ → String → Reader (Except Mismatch σ)}
    (takes : ∀ {d name t d'}, step d name t d' → StepTakes r d name t d') {d d' : σ}
    {written : List (Option String × Tree)} (h : Leads step d written d') :
    StepsTake r d written d' := by
  induction h with
  | nil d => exact .nil d
  | cons here _ ih => exact .cons (takes here) ih

/-- A step that keeps an invariant of the state and is grounded wherever it holds makes a grounded
fold. -/
theorem foldMembers_leads {step : σ → String → Tree → σ → Prop} {inv : σ → Prop}
    {r : σ → String → Reader (Except Mismatch σ)}
    (grounded : ∀ d name n s d' c, inv d → r d name ⟨n, s⟩ = Except.ok (Except.ok d', c) →
      inv d' ∧ ∃ t a b, Blank s (Ascii.colon :: a) ∧ Blank a b ∧ Grammar.Value t b c.rest ∧
        step d name t d')
    (first : Bool) {fuel n : Nat} {s : Bytes} {d d' : σ} {c : Cursor} (start : inv d)
    (h : foldMembers r fuel first d ⟨n, s⟩ = Except.ok (Except.ok d', c)) :
    ∃ written rest, c.rest = Ascii.closeBrace :: rest ∧ MembersFrom first written s rest ∧
      Leads step d written d' := by
  induction fuel generalizing first n s d with
  | zero => exact absurd h (stuck_failNext _ _ _)
  | succ fuel ih =>
    obtain ⟨name, ⟨m, a⟩, named, next⟩ := bind_eq_ok.mp h
    have named := nameFollows_eq_ok named
    cases name with
    | none =>
      obtain ⟨rest, rfl, before⟩ := named
      obtain ⟨same, rfl⟩ := pure_eq_ok.mp next
      obtain rfl := Except.ok.inj same
      exact ⟨[], rest, rfl, membersFrom_nil_iff.mpr before, .nil _⟩
    | some name =>
      obtain ⟨l, q, lead, before, quoted⟩ := named
      obtain ⟨verdict, ⟨k, b⟩, stepped, next⟩ := bind_eq_ok.mp next
      cases verdict with
      | error m => cases (pure_eq_ok.mp next).1
      | ok d₁ =>
        obtain ⟨goesOn, t, x, y, colon, between, value, here⟩ :=
          grounded _ _ _ _ _ _ start stepped
        obtain ⟨written, rest, e, more, others⟩ := ih false goesOn next
        refine ⟨(some name, t) :: written, rest, e, ?_, .cons here others⟩
        exact membersFrom_cons_iff.mpr
          ⟨l, q, a, x, y, b, lead, before, quoted, colon, between, value, more⟩

/-- What stands behind a colon. -/
theorem Grounded.behind_colon {r : Reader α} {stands : Tree → α → Prop} (h : Grounded r stands)
    (f : α → β) {n : Nat} {s : Bytes} {y : β} {c : Cursor}
    (run : (colonToken >>= fun _ => r >>= fun x => pure (f x)) ⟨n, s⟩ = .ok (y, c)) :
    ∃ x t a b, f x = y ∧ Blank s (Ascii.colon :: a) ∧ Blank a b ∧ Grammar.Value t b c.rest ∧
      stands t x := by
  obtain ⟨_, ⟨_, _⟩, colon, behind⟩ := bind_eq_ok.mp run
  obtain ⟨x, _, read, last⟩ := bind_eq_ok.mp behind
  obtain ⟨same, rfl⟩ := pure_eq_ok.mp last
  obtain ⟨t, b, between, value, here⟩ := h _ _ _ _ read
  exact ⟨x, t, _, b, same, colonToken_eq_ok colon, between, value, here⟩

theorem grounded_skipValue : Grounded skipValue fun _ _ => True := by
  intro n s x c h
  obtain ⟨t, a, before, value⟩ := value_of_skipValue h
  exact ⟨t, a, before, value, trivial⟩

/-! ### Tagged values -/

namespace Tagged

/-- A content of one of the tags. -/
def Lists (e : Tagged α) (content : Content α) : Prop :=
  ∃ name, e.cases.lookup name = some content

/-- What one member does to what has been seen of a tagged value. -/
inductive Step (e : Tagged α) (room : Nat) (stands : Content α → Tree → α → Prop) :
    TaggedDraft α → String → Tree → TaggedDraft α → Prop
  | tag {t : Tree} {content : Content α} : Named e.cases room t content →
      Step e room stands .nothing e.tagName t (.tag content)
  | tagBehind {t : Tree} {b : Buffered} {content : Content α} {x : α} :
      Named e.cases room t content → content.ofBuffered b = .ok x →
      Step e room stands (.content b) e.tagName t (.both x)
  | content {t : Tree} {b : Buffered} : t.kept? room = some b →
      Step e room stands .nothing e.contentName t (.content b)
  | contentBehind {t : Tree} {content : Content α} {x : α} : e.Lists content →
      stands content t x → Step e room stands (.tag content) e.contentName t (.both x)
  | other {d : TaggedDraft α} {name : String} {t : Tree} : name ≠ e.tagName →
      name ≠ e.contentName → Step e room stands d name t d

/-- What a value stands for as a tagged one: a list of its tag and its content, or an object. -/
inductive Stands (e : Tagged α) (room : Nat) (stands : Content α → Tree → α → Prop) :
    Tree → α → Prop
  | list {name : String} {content : Content α} {t : Tree} {x : α} : 2 ≤ room →
      e.cases.lookup name = some content → stands content t x →
      Stands e room stands (.list [.text (some name), t]) x
  | object {written : List (Option String × Tree)} {d : TaggedDraft α} {x : α} : 2 ≤ room →
      Leads (e.Step (room - 1) stands) .nothing written d → e.finish d = .ok x →
      Stands e room stands (.object written) x

/-- A tag that was seen is one of those that there are. -/
def Proper (e : Tagged α) (d : TaggedDraft α) : Prop :=
  ∀ content, d = .tag content → e.Lists content

variable {e : Tagged α} {stands : Content α → Tree → α → Prop}

/-- Every member that is read is a step of the draft. -/
theorem grounded_memberStep
    (grounded : ∀ content, e.Lists content → Grounded (content.read room) (stands content))
    (d : TaggedDraft α) (name : String) (n : Nat) (s : Bytes) (d' : TaggedDraft α) (c : Cursor)
    (proper : e.Proper d) (h : e.memberStep room d name ⟨n, s⟩ = Except.ok (Except.ok d', c)) :
    e.Proper d' ∧ ∃ t a b, Blank s (Ascii.colon :: a) ∧ Blank a b ∧ Grammar.Value t b c.rest ∧
      e.Step room stands d name t d' := by
  unfold memberStep at h
  split at h
  · next isTag =>
    obtain rfl := eq_of_beq isTag
    cases d with
    | nothing =>
      obtain ⟨content, t, a, b, same, colon, between, value, named⟩ :=
        grounded_nameValue.behind_colon (fun content => Except.ok (TaggedDraft.tag content)) h
      obtain rfl := Except.ok.inj same
      refine ⟨?_, t, a, b, colon, between, value, .tag named⟩
      rintro _ ⟨⟩
      exact named.exists_lookup
    | content kept =>
      obtain ⟨content, t, a, b, same, colon, between, value, named⟩ :=
        grounded_nameValue.behind_colon
          (fun content : Content α => (content.ofBuffered kept).map TaggedDraft.both) h
      cases took : content.ofBuffered kept with
      | error m =>
        rw [took] at same
        cases same
      | ok x =>
        rw [took] at same
        obtain rfl := Except.ok.inj same
        refine ⟨?_, t, a, b, colon, between, value, .tagBehind named took⟩
        rintro _ ⟨⟩
    | tag | both => cases (pure_eq_ok.mp h).1
  · next notTag =>
    split at h
    · next isContent =>
      obtain rfl := eq_of_beq isContent
      cases d with
      | nothing =>
        obtain ⟨kept, t, a, b, same, colon, between, value, meant⟩ :=
          (sound_buffered room).grounded.behind_colon
            (fun kept => Except.ok (TaggedDraft.content (α := α) kept)) h
        obtain rfl := Except.ok.inj same
        refine ⟨?_, t, a, b, colon, between, value, .content meant⟩
        rintro _ ⟨⟩
      | tag content =>
        have listed := proper content rfl
        obtain ⟨x, t, a, b, same, colon, between, value, here⟩ :=
          (grounded content listed).behind_colon (fun x => Except.ok (TaggedDraft.both x)) h
        obtain rfl := Except.ok.inj same
        refine ⟨?_, t, a, b, colon, between, value, .contentBehind listed here⟩
        rintro _ ⟨⟩
      | content | both => cases (pure_eq_ok.mp h).1
    · next notContent =>
      obtain ⟨_, t, a, b, same, colon, between, value, -⟩ :=
        grounded_skipValue.behind_colon (fun _ => Except.ok d) h
      obtain rfl := Except.ok.inj same
      exact ⟨proper, t, a, b, colon, between, value,
        .other (ne_of_beq_false (eq_false_of_ne_true notTag))
          (ne_of_beq_false (eq_false_of_ne_true notContent))⟩

/-- A list of a tag and its content, up to white space before the bracket that closes it. -/
theorem listForm_eq_ok
    (grounded : ∀ content, e.Lists content → Grounded (content.read room) (stands content))
    {n : Nat} {s : Bytes} {x : α} {c : Cursor}
    (h : e.listForm room ⟨n, s⟩ = Except.ok (Except.ok x, c)) :
    ∃ name content t, e.cases.lookup name = some content ∧ stands content t x ∧
      ∀ rest, Blank c.rest (Ascii.closeBracket :: rest) → Items [.text (some name), t] s rest := by
  obtain ⟨follows, ⟨_, _⟩, some, inside⟩ := bind_eq_ok.mp h
  cases follows with
  | false => cases (pure_eq_ok.mp inside).1
  | true =>
    obtain ⟨content, ⟨_, _⟩, name, behind⟩ := bind_eq_ok.mp inside
    obtain ⟨follows, ⟨_, _⟩, more, last⟩ := bind_eq_ok.mp behind
    cases follows with
    | false => cases (pure_eq_ok.mp last).1
    | true =>
      obtain ⟨y, read, same⟩ := map_eq_ok.mp last
      obtain rfl := Except.ok.inj same
      obtain ⟨l, lead, blank⟩ := elementFollows_eq_ok some
      obtain ⟨_, q, between, value, name, rfl, listed⟩ := grounded_bareName _ _ _ _ name
      obtain ⟨l', lead', blank'⟩ := elementFollows_eq_ok more
      obtain ⟨t, q', between', value', here⟩ := grounded content ⟨name, listed⟩ _ _ _ _ read
      refine ⟨name, content, t, listed, here, fun rest close => ?_⟩
      have second := itemsFrom_cons_iff.mpr
        ⟨l', q', _, lead', blank'.trans between', value', itemsFrom_nil_iff.mpr close⟩
      have first : ItemsFrom true _ _ _ :=
        itemsFrom_cons_iff.mpr ⟨l, q, _, lead, blank.trans between, value, second⟩
      exact first

/-- A tagged value that was read stands for what it says. -/
theorem grounded_read
    (grounded : ∀ content, e.Lists content → Grounded (content.read (room - 1)) (stands content)) :
    Grounded (e.read room) (e.Stands room stands) := by
  intro n s x c h
  obtain ⟨m, a, before, _, h⟩ := peekToken_bind_eq_ok h
  cases a with
  | nil => exact absurd h (stuck_failNext _ _ _)
  | cons b a =>
    simp only [List.head?_cons] at h
    split at h
    · next isBracket =>
      obtain rfl := eq_of_beq isBracket
      obtain ⟨_, ⟨_, _⟩, opened, inside⟩ := bind_eq_ok.mp h
      have enough := openBracket_enough opened
      obtain ⟨rfl, rfl⟩ := openBracket_eq_ok opened
      obtain ⟨mid, inside, close⟩ := enclosed_eq_ok closeList_closes inside
      obtain ⟨_, _, _, listed, here, items⟩ := listForm_eq_ok grounded inside
      exact ⟨_, _, before, .list (items _ close), .list enough listed here⟩
    split at h
    · next isBrace =>
      obtain rfl := eq_of_beq isBrace
      obtain ⟨_, ⟨_, _⟩, opened, inside⟩ := bind_eq_ok.mp h
      have enough := openBracket_enough opened
      obtain ⟨rfl, rfl⟩ := openBracket_eq_ok opened
      obtain ⟨mid, inside, close⟩ := enclosed_eq_ok closeObject_closes inside
      obtain ⟨draft, _, folded, verdict⟩ := bind_eq_ok.mp inside
      obtain ⟨finished, rfl⟩ := pure_eq_ok.mp verdict
      cases draft with
      | error m => cases finished
      | ok d =>
        have start : e.Proper .nothing := by
          rintro _ ⟨⟩
        obtain ⟨written, rest, ends, members, leads⟩ :=
          foldMembers_leads (grounded_memberStep grounded) true start folded
        rw [ends] at close
        obtain ⟨-, rfl⟩ := List.cons.inj (close.eq_of_atToken (atToken_cons rfl _))
        exact ⟨.object written, _, before, .object members, .object enough leads finished⟩
    · exact absurd h (stuck_mistyped _ _ _)

/-- Every step is taken when its member is read. -/
theorem stepTakes_of_step (distinct : e.contentName ≠ e.tagName)
    (takes : ∀ {content t x}, e.Lists content → stands content t x →
      Takes (content.read room) t x)
    {d d' : TaggedDraft α} {name : String} {t : Tree} (h : e.Step room stands d name t d') :
    StepTakes (e.memberStep room) d name t d' := by
  intro s a b rest colon between value delimited
  cases h with
  | tag named =>
    have read := takes_named named a b rest between value delimited
    rw [memberStep, beq_self_eq_true, if_pos rfl]
    exact (reads_colonToken colon).bind (read.bind (reads_pure _ _))
  | tagBehind named took =>
    have read := takes_named named a b rest between value delimited
    rw [memberStep, beq_self_eq_true, if_pos rfl]
    refine (reads_colonToken colon).bind (read.bind ?_)
    rw [took]
    exact reads_pure _ _
  | content kept =>
    have read := complete_buffered room t _ kept a b rest between value delimited
    rw [memberStep, beq_eq_false_iff_ne.mpr distinct, beq_self_eq_true, if_neg Bool.false_ne_true,
      if_pos rfl]
    exact (reads_colonToken colon).bind (read.bind (reads_pure _ _))
  | contentBehind listed here =>
    exact stepTakes_content distinct (takes listed here) s a b rest colon between value delimited
  | other notTag notContent =>
    have skipped : Reads skipValue a () rest := skipValue_of_value between value delimited
    unfold memberStep
    rw [beq_eq_false_iff_ne.mpr notTag, beq_eq_false_iff_ne.mpr notContent,
      if_neg Bool.false_ne_true, if_neg Bool.false_ne_true]
    exact (reads_colonToken colon).bind (skipped.bind (reads_pure _ _))

/-- A text that stands for a tagged value is read as that value. -/
theorem takes_of_stands (distinct : e.contentName ≠ e.tagName)
    (takes : ∀ {content t x}, e.Lists content → stands content t x →
      Takes (content.read (room - 1)) t x)
    {t : Tree} {x : α} (h : e.Stands room stands t x) : Takes (e.read room) t x := by
  cases h with
  | object enough leads finished =>
    exact takes_read enough (leads.stepsTake (stepTakes_of_step distinct takes)) finished
  | list enough listed here =>
    intro s a rest before value delimited
    have stop := value.atToken
    cases value with
    | list items =>
      refine .peekToken before stop ((reads_openBracket enough _ _).bind ?_)
      have items : ItemsFrom true _ _ rest := items
      obtain ⟨l, p, b, lead, blank, name, others⟩ := itemsFrom_cons_iff.mp items
      obtain ⟨l', q, c, lead', blank', content, none⟩ := itemsFrom_cons_iff.mp others
      have tag := takes_bareName listed p p b (.nil p) name others.delimited
      have inside := takes ⟨_, listed⟩ here q q c (.nil q) content none.delimited
      refine reads_closed (itemsFrom_nil_iff.mp none) ?_
      refine (reads_elementFollows_true lead blank name).bind (tag.bind ?_)
      exact (reads_elementFollows_true lead' blank' content).bind (inside.map Except.ok)

end Tagged

end TargetQuery.Json
