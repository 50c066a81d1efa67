import TargetQuery.Proofs.Json.Insertion
import TargetQuery.Proofs.Json.Rendering
import TargetQuery.Proofs.Json.TaggedReading

/-!
# A tag and its content in either order

A tagged value of two members means the same in either order, as far as its content means the same
when it is kept and when it is read at once. For a tagged value that is the content of another one
this can fail: what is kept may write its tag in ways that are not read, and what is read may have
unknown members that cannot be kept.
-/

namespace TargetQuery.Json

open Grammar Reader

variable {α : Type} {room : Nat} {t : Tree}

/-! ### Names that are kept -/

theorem choose_eq_some {table : List (String × α)} {name : String} {x : α} :
    choose table name = .ok x ↔ table.lookup name = some x := by
  rw [choose]
  cases table.lookup name <;> simp

/-- A kept name is one that is read, but for an empty object in place of null. -/
theorem named_of_kept {table : List (String × α)} {b : Buffered} {x : α}
    (kept : t.kept? room = some b) (meant : b.name table = .ok x)
    (plain : ∀ name, t ≠ .object [(name, .object [])]) : Named table room t x := by
  cases b with
  | text s =>
    obtain rfl := kept?_eq_text.mp kept
    exact .text (choose_eq_some.mp meant)
  | object members =>
    obtain ⟨written, rfl, enough, entries⟩ := kept?_eq_object.mp kept
    obtain _ | ⟨⟨name, value⟩, _ | ⟨_, _⟩⟩ := members
    · cases meant
    · simp only [mapM_eq_some_cons, mapM_eq_some_nil] at entries
      obtain ⟨⟨_, c⟩, _, rfl, entry, rfl⟩ := entries
      obtain ⟨_, _, rfl, inner, same⟩ := keptMember?_eq_some.mp entry
      cases same
      obtain ⟨y, chosen, unit⟩ := except_bind_eq_ok.mp meant
      have listed := choose_eq_some.mp chosen
      obtain _ | _ | _ | _ | _ | ⟨_ | _⟩ := value
      · cases unit
        obtain rfl := kept?_eq_null.mp inner
        exact .object enough listed
      · cases unit
      · cases unit
      · cases unit
      · cases unit
      · obtain ⟨_, rfl, _, none⟩ := kept?_eq_object.mp inner
        rw [mapM_eq_some_nil] at none
        exact absurd (none ▸ rfl) (plain (some name))
      · cases unit
    · cases meant
  | _ => cases meant

theorem kept_of_named {table : List (String × α)} {x : α} (h : Named table room t x) :
    ∃ b, t.kept? room = some b ∧ b.name table = .ok x := by
  cases h with
  | text listed => exact ⟨_, kept?_eq_text.mpr rfl, choose_eq_some.mpr listed⟩
  | @object name x enough listed =>
    refine ⟨.object [(name, .null)], kept?_eq_object.mpr ⟨_, rfl, enough, ?_⟩, ?_⟩
    · exact mapM_keptMember?_cons.mpr ⟨name, .null, [], rfl, kept?_eq_null.mpr rfl, rfl, rfl⟩
    · simp [Buffered.name, choose_eq_some.mpr listed, bind, Except.bind]

namespace Tagged

variable {e : Tagged α} {d d' : TaggedDraft α} {x : α}

/-- A tag that is written in a way that only a kept value can have: in a list as a number, which
counts the tags, or in an object with an empty object under its name. -/
inductive Lax (e : Tagged α) : Tree → Prop
  | number {token : Bytes} {items : List Tree} : Lax e (.list (.number token :: items))
  | member {name : Option String} {written : List (Option String × Tree)} :
      (some e.tagName, .object [(name, .object [])]) ∈ written → Lax e (.object written)

/-- An object without members of other names than those of a tag and its content. -/
def Plain (e : Tagged α) (t : Tree) : Prop :=
  ∀ written, t = .object written → ∀ name c, (some name, c) ∈ written →
    name = e.tagName ∨ name = e.contentName

/-- A buffered member that is taken is a step of the draft. -/
theorem step_of_kept {name : String} {b : Buffered} (proper : e.Proper d)
    (kept : t.kept? room = some b) (meant : e.bufferedStep d (name, b) = .ok d')
    (plain : name = e.tagName → ∀ key, t ≠ .object [(key, .object [])]) :
    e.Proper d' ∧ e.Step room (Content.Kept room) d name t d' := by
  unfold bufferedStep at meant
  dsimp only at meant
  split at meant
  · next isTag =>
    obtain rfl := eq_of_beq isTag
    cases d with
    | nothing =>
      obtain ⟨content, named, same⟩ := except_map_eq_ok.mp meant
      subst same
      have named := named_of_kept kept named (plain rfl)
      refine ⟨?_, .tag named⟩
      rintro _ ⟨⟩
      exact named.exists_lookup
    | content c =>
      obtain ⟨content, named, took⟩ := except_bind_eq_ok.mp meant
      obtain ⟨y, here, same⟩ := except_map_eq_ok.mp took
      subst same
      refine ⟨?_, .tagBehind (named_of_kept kept named (plain rfl)) here⟩
      rintro _ ⟨⟩
    | tag | both => cases meant
  · next notTag =>
    split at meant
    · next isContent =>
      obtain rfl := eq_of_beq isContent
      cases d with
      | nothing =>
        cases meant
        refine ⟨?_, .content kept⟩
        rintro _ ⟨⟩
      | tag content =>
        obtain ⟨y, here, same⟩ := except_map_eq_ok.mp meant
        subst same
        refine ⟨?_, .contentBehind (proper content rfl) ⟨b, kept, here⟩⟩
        rintro _ ⟨⟩
      | content | both => cases meant
    · next notContent =>
      cases meant
      exact ⟨proper, .other (ne_of_beq_false (eq_false_of_ne_true notTag))
        (ne_of_beq_false (eq_false_of_ne_true notContent))⟩

theorem ofBuffered_list_eq_ok {items : List Buffered} :
    e.ofBuffered (.list items) = .ok x ↔ ∃ tag value content, items = [tag, value] ∧
      tag.bareName e.cases = .ok content ∧ content.ofBuffered value = .ok x := by
  constructor
  · intro h
    obtain _ | ⟨tag, _ | ⟨value, extra⟩⟩ := items
    · cases h
    · obtain ⟨_, _, short⟩ := except_bind_eq_ok.mp h
      cases short
    · obtain ⟨content, named, h⟩ := except_bind_eq_ok.mp h
      obtain ⟨y, took, h⟩ := except_bind_eq_ok.mp h
      cases extra with
      | nil =>
        cases h
        exact ⟨tag, value, content, rfl, named, took⟩
      | cons => cases h
  · rintro ⟨tag, value, content, rfl, named, took⟩
    exact except_bind_eq_ok.mpr ⟨content, named, except_bind_eq_ok.mpr ⟨x, took, rfl⟩⟩

theorem Lax.cons {m : Option String × Tree} {written : List (Option String × Tree)}
    (h : e.Lax (.object written)) : e.Lax (.object (m :: written)) := by
  cases h with
  | member mem => exact .member (List.mem_cons_of_mem m mem)

/-- Buffered members that are taken are steps of the draft, one by one. -/
theorem leads_of_kept {written : List (Option String × Tree)} {kept : List (String × Buffered)}
    (proper : e.Proper d) (entries : written.mapM (keptMember? (Tree.kept? room)) = some kept)
    (meant : kept.foldlM e.bufferedStep d = .ok d') (strict : ¬ e.Lax (.object written)) :
    Leads (e.Step room (Content.Kept room)) d written d' := by
  induction written generalizing d kept with
  | nil =>
    cases entries
    cases meant
    exact .nil _
  | cons m written ih =>
    obtain ⟨key, c⟩ := m
    obtain ⟨name, b, more, rfl, here, others, rfl⟩ := mapM_keptMember?_cons.mp entries
    rw [List.foldlM_cons] at meant
    obtain ⟨d₁, first, behind⟩ := except_bind_eq_ok.mp meant
    have plain : name = e.tagName → ∀ key, c ≠ .object [(key, .object [])] := by
      rintro rfl key rfl
      exact strict (.member List.mem_cons_self)
    obtain ⟨proper, step⟩ := step_of_kept proper here first plain
    exact .cons step (ih proper others behind fun lax => strict lax.cons)

/-- What is kept is also read at once, unless its tag is written in a lax way. -/
theorem stands_of_kept {b : Buffered} (kept : t.kept? room = some b)
    (meant : e.ofBuffered b = .ok x) (strict : ¬ e.Lax t) :
    e.Stands room (Content.Kept (room - 1)) t x := by
  cases b with
  | object members =>
    obtain ⟨written, rfl, enough, entries⟩ := kept?_eq_object.mp kept
    obtain ⟨d, folded, finished⟩ := except_bind_eq_ok.mp meant
    have start : e.Proper .nothing := by
      rintro _ ⟨⟩
    exact .object enough (leads_of_kept start entries folded strict) finished
  | list items =>
    obtain ⟨written, rfl, enough, entries⟩ := kept?_eq_list.mp kept
    obtain ⟨tag, value, content, rfl, named, took⟩ := ofBuffered_list_eq_ok.mp meant
    simp only [mapM_eq_some_cons, mapM_eq_some_nil] at entries
    obtain ⟨u, _, rfl, keptTag, c, _, rfl, keptValue, rfl⟩ := entries
    cases tag with
    | text name =>
      obtain rfl := kept?_eq_text.mp keptTag
      exact .list enough (choose_eq_some.mp named) ⟨value, keptValue, took⟩
    | number n =>
      obtain ⟨token, rfl⟩ := kept?_eq_number keptTag
      exact absurd .number strict
    | _ => cases named
  | _ => cases meant

/-- The step of a known member can be taken from the buffer. -/
theorem kept_of_step {name : String} (h : e.Step room (Content.Kept room) d name t d')
    (distinct : e.contentName ≠ e.tagName) (known : name = e.tagName ∨ name = e.contentName) :
    ∃ b, t.kept? room = some b ∧ e.bufferedStep d (name, b) = .ok d' := by
  unfold bufferedStep
  dsimp only
  cases h with
  | tag named =>
    obtain ⟨b, kept, meant⟩ := kept_of_named named
    exact ⟨b, kept, by simp [meant, Except.map]⟩
  | tagBehind named took =>
    obtain ⟨b, kept, meant⟩ := kept_of_named named
    exact ⟨b, kept, by simp [meant, took, Except.map, bind, Except.bind]⟩
  | content kept => exact ⟨_, kept, by simp [distinct]⟩
  | contentBehind _ here =>
    obtain ⟨b, kept, meant⟩ := here
    exact ⟨b, kept, by simp [distinct, meant, Except.map]⟩
  | other notTag notContent => exact absurd known (not_or.mpr ⟨notTag, notContent⟩)

/-- Steps of known members can be taken from the buffer, one by one. -/
theorem kept_of_leads {written : List (Option String × Tree)}
    (h : Leads (e.Step room (Content.Kept room)) d written d')
    (distinct : e.contentName ≠ e.tagName) (plain : e.Plain (.object written)) :
    ∃ kept, written.mapM (keptMember? (Tree.kept? room)) = some kept ∧
      kept.foldlM e.bufferedStep d = .ok d' := by
  induction h with
  | nil d => exact ⟨[], rfl, rfl⟩
  | @cons d _ _ name c more here _ ih =>
    obtain ⟨b, kept, meant⟩ := kept_of_step here distinct (plain _ rfl name c List.mem_cons_self)
    obtain ⟨others, entries, folded⟩ := ih (by
      rintro _ ⟨⟩ name c mem
      exact plain _ rfl name c (List.mem_cons_of_mem _ mem))
    refine ⟨(name, b) :: others, ?_, ?_⟩
    · exact mapM_keptMember?_cons.mpr ⟨name, b, others, rfl, kept, entries, rfl⟩
    · rw [List.foldlM_cons, meant]
      exact folded

/-- What is read at once can be kept as well, unless it has unknown members. -/
theorem kept_of_stands (h : e.Stands room (Content.Kept (room - 1)) t x)
    (distinct : e.contentName ≠ e.tagName) (plain : e.Plain t) :
    ∃ b, t.kept? room = some b ∧ e.ofBuffered b = .ok x := by
  cases h with
  | object enough leads finished =>
    obtain ⟨kept, entries, folded⟩ := kept_of_leads leads distinct plain
    refine ⟨.object kept, kept?_eq_object.mpr ⟨_, rfl, enough, entries⟩, ?_⟩
    rw [ofBuffered, folded]
    exact finished
  | @list name content c x enough listed here =>
    obtain ⟨b, kept, meant⟩ := here
    refine ⟨.list [.text name, b], kept?_eq_list.mpr ⟨_, rfl, enough, ?_⟩,
      ofBuffered_list_eq_ok.mpr ⟨.text name, b, content, rfl, choose_eq_some.mpr listed, meant⟩⟩
    have tag : (Tree.text (some name)).kept? (room - 1) = some (.text name) := kept?_eq_text.mpr rfl
    exact mapM_cons_eq_some.mpr ⟨_, _, tag, mapM_cons_eq_some.mpr ⟨_, _, kept, rfl, rfl⟩, rfl⟩

end Tagged

/-! ### Objects of two members -/

namespace Grammar

variable {s rest : Bytes}

/-- An object of two members, written around texts of their values. -/
inductive Pair (first second : String) (A B : Bytes) : Bytes → Prop
  | mk {s a b c d e f g : Bytes} : Blank s (Ascii.openBrace :: a) → Blank a b →
      Quoted (some first) b c → Blank c (Ascii.colon :: (A ++ Ascii.comma :: d)) → Blank d e →
      Quoted (some second) e f → Blank f (Ascii.colon :: (B ++ Ascii.closeBrace :: g)) →
      Blank g [] → Pair first second A B s

/-- Such an object without white space. -/
def pairText (first second : String) (A B : Bytes) : Bytes :=
  Ascii.openBrace :: (Utf8.encodeChars (Value.quote first) ++ Ascii.colon :: (A ++ Ascii.comma ::
    (Utf8.encodeChars (Value.quote second) ++ Ascii.colon :: (B ++ [Ascii.closeBrace]))))

theorem pair_pairText (first second : String) (A B : Bytes) :
    Pair first second A B (pairText first second A B) :=
  .mk (.nil _) (.nil _) (Value.quoted_quote first _) (.nil _) (.nil _) (Value.quoted_quote second _)
    (.nil _) (.nil _)

def IsValue (s : Bytes) : Prop := ∃ t, Document t s

theorem Document.append {t : Tree} {A : Bytes} (h : Document t A) (more : Bytes) :
    Element t (A ++ more) more := by
  obtain ⟨token, same, frame⟩ := h.framed
  rw [List.append_nil] at same
  exact same ▸ frame more

theorem Document.text {t : Tree} {A : Bytes} (h : Document t (Ascii.doubleQuote :: A)) :
    ∃ text, t = .text text := by
  obtain ⟨before, value, -⟩ := h
  obtain rfl := before.eq_of_atToken (atToken_cons rfl _)
  obtain ⟨b, more, same, opens⟩ := value.head
  exact opens.kind.2.2.2.1 (List.cons.inj same).1.symm

theorem Element.document {t : Tree} {A : Bytes} (h : Element t (A ++ rest) rest) :
    Document t A := by
  obtain ⟨token, same, frame⟩ := h.framed
  obtain rfl := List.append_cancel_right same
  have alone := frame []
  rwa [List.append_nil] at alone

/-- A member around a text of its value. -/
theorem Member.around {name : String} {key : Option String} {t : Tree} {A a b : Bytes}
    (h : Member (key, t) s rest) (before : Blank s a) (quoted : Quoted (some name) a b)
    (colon : Blank b (Ascii.colon :: (A ++ rest))) :
    Document t A ∧ ∀ k, key = some k → k = name := by
  obtain ⟨before', quoted', colon', value⟩ := h
  obtain rfl := before.unique before' quoted.atToken quoted'.atToken
  obtain rfl := quoted.unique quoted'
  obtain ⟨-, rfl⟩ := List.cons.inj (colon.unique colon' (atToken_cons rfl _) (atToken_cons rfl _))
  refine ⟨value.document, ?_⟩
  rintro k rfl
  exact quoted'.text_unique quoted

variable {first second : String} {A B : Bytes}

theorem Pair.document (h : Pair first second A B s) {t u : Tree} (isA : Document t A)
    (isB : Document u B) : Document (.object [(some first, t), (some second, u)]) s := by
  obtain ⟨opens, before, quoted, colon, before', quoted', colon', after⟩ := h
  refine .mk opens (.object (.cons ?_)) after
  exact .cons (.mk before quoted colon (isA.append _))
    (.last (.mk before' quoted' colon' (isB.append _)))

/-- Whatever it is read as has two members, with these values and names. -/
theorem Pair.members (h : Pair first second A B s) (isA : IsValue A) (isB : IsValue B) {t : Tree}
    (document : Document t s) : ∃ k l u v, t = .object [(k, u), (l, v)] ∧ Document u A ∧
      Document v B ∧ (∀ n, k = some n → n = first) ∧ ∀ n, l = some n → n = second := by
  obtain ⟨opens, before, quoted, colon, before', quoted', colon', -⟩ := h
  obtain ⟨u₀, isA⟩ := isA
  obtain ⟨v₀, isB⟩ := isB
  obtain ⟨lead, value, -⟩ := document
  obtain rfl := opens.unique lead (atToken_cons rfl _) value.atToken
  obtain ⟨written, rfl, inside⟩ := value.object_of_openBrace
  have here : Member (some first, u₀) _ _ := .mk before quoted colon (isA.append _)
  have next : Member (some second, v₀) _ _ := .mk before' quoted' colon' (isB.append _)
  cases inside with
  | nil closes => exact absurd closes here.not_closes
  | cons inside =>
    obtain ⟨k, u, more, same⟩ := inside.exists_cons
    rw [same] at inside
    obtain ⟨here, behind⟩ := inside.uncons here (delimited_cons (by decide) _)
    have behind := behind.behind_comma
    obtain ⟨l, v, others, rfl⟩ := behind.exists_cons
    obtain ⟨next, last⟩ := behind.uncons next (delimited_cons (by decide) _)
    obtain ⟨isU, first⟩ := here.around before quoted colon
    obtain ⟨isV, second⟩ := next.around before' quoted' colon'
    obtain ⟨rfl, -⟩ | ⟨_, comma, -⟩ := last
    · exact ⟨k, l, u, v, congrArg _ same, isU, isV, first, second⟩
    · cases comma.eq_of_atToken (atToken_cons rfl _)

end Grammar

namespace Tagged

variable {e : Tagged α} {stands : Content α → Tree → α → Prop} {x : α}

theorem Step.of_nothing {name : String} {d : TaggedDraft α}
    (h : e.Step room stands .nothing name t d) :
    (name = e.tagName ∧ ∃ content, Named e.cases room t content ∧ d = .tag content) ∨
      (name = e.contentName ∧ ∃ b, t.kept? room = some b ∧ d = .content b) ∨
      (name ≠ e.tagName ∧ name ≠ e.contentName) := by
  cases h with
  | tag named => exact .inl ⟨rfl, _, named, rfl⟩
  | content kept => exact .inr (.inl ⟨rfl, _, kept, rfl⟩)
  | other notTag notContent => exact .inr (.inr ⟨notTag, notContent⟩)

theorem Step.of_tag {name : String} {content : Content α} {d : TaggedDraft α}
    (h : e.Step room stands (.tag content) name t d) :
    (name = e.contentName ∧ ∃ x, stands content t x ∧ d = .both x) ∨ name ≠ e.contentName := by
  cases h with
  | contentBehind _ here => exact .inl ⟨rfl, _, here, rfl⟩
  | other _ notContent => exact .inr notContent

theorem Step.of_content {name : String} {b : Buffered} {d : TaggedDraft α}
    (h : e.Step room stands (.content b) name t d) :
    (name = e.tagName ∧ ∃ content x, Named e.cases room t content ∧ content.ofBuffered b = .ok x ∧
      d = .both x) ∨ name ≠ e.tagName := by
  cases h with
  | tagBehind named took => exact .inl ⟨rfl, _, _, named, took, rfl⟩
  | other notTag _ => exact .inr notTag

/-- The tag first: the content is read at once. -/
theorem stands_tag_first (distinct : e.contentName ≠ e.tagName) {c : Tree} :
    e.Stands room stands (.object [(some e.tagName, t), (some e.contentName, c)]) x ↔
      2 ≤ room ∧ ∃ content, Named e.cases (room - 1) t content ∧ stands content c x := by
  constructor
  · intro h
    cases h with
    | object enough leads finished =>
      obtain _ | ⟨first, _ | ⟨second, ⟨⟩⟩⟩ := leads
      obtain ⟨-, content, named, rfl⟩ | ⟨same, -⟩ | ⟨other, -⟩ := first.of_nothing
      · obtain ⟨-, y, here, rfl⟩ | other := second.of_tag
        · cases finished
          exact ⟨enough, content, named, here⟩
        · exact absurd rfl other
      · exact absurd same.symm distinct
      · exact absurd rfl other
  · rintro ⟨enough, content, named, here⟩
    exact .object enough
      (.cons (.tag named) (.cons (.contentBehind named.exists_lookup here) (.nil _))) rfl

/-- The content first: it counts as what is kept of it. -/
theorem stands_content_first (distinct : e.contentName ≠ e.tagName) {c : Tree} :
    e.Stands room stands (.object [(some e.contentName, c), (some e.tagName, t)]) x ↔
      2 ≤ room ∧ ∃ content, Named e.cases (room - 1) t content ∧ content.Kept (room - 1) c x := by
  constructor
  · intro h
    cases h with
    | object enough leads finished =>
      obtain _ | ⟨first, _ | ⟨second, ⟨⟩⟩⟩ := leads
      obtain ⟨same, -⟩ | ⟨-, b, kept, rfl⟩ | ⟨-, other⟩ := first.of_nothing
      · exact absurd same distinct
      · obtain ⟨-, content, y, named, took, rfl⟩ | other := second.of_content
        · cases finished
          exact ⟨enough, content, named, b, kept, took⟩
        · exact absurd rfl other
      · exact absurd rfl other
  · rintro ⟨enough, content, named, b, kept, took⟩
    exact .object enough (.cons (.content kept) (.cons (.tagBehind named took) (.nil _))) rfl

/-- The names in an object that stands for something are text. -/
theorem Stands.pair {k l : Option String} {c : Tree}
    (h : e.Stands room stands (.object [(k, t), (l, c)]) x) :
    ∃ first second, k = some first ∧ l = some second := by
  cases h with
  | object _ leads _ =>
    obtain _ | ⟨_, _ | _⟩ := leads
    exact ⟨_, _, rfl, rfl⟩

section Runs

variable (distinct : e.contentName ≠ e.tagName)
  (grounded : ∀ content, e.Lists content → Grounded (content.read (room - 1)) (stands content))
  (takes : ∀ {content t x}, e.Lists content → stands content t x →
    Takes (content.read (room - 1)) t x)
  {s A B : Bytes} (isA : IsValue A) (isB : IsValue B)

include distinct grounded takes isA isB

/-- A text of two members is accepted for what the trees of their values stand for. -/
theorem run_pair {first second : String} (h : Pair first second A B s) :
    (e.read room).run s = .ok x ↔ ∃ t c, Document t A ∧ Document c B ∧
      e.Stands room stands (.object [(some first, t), (some second, c)]) x := by
  constructor
  · intro run
    obtain ⟨tree, document, here⟩ := (grounded_read grounded).document run
    obtain ⟨k, l, u, v, rfl, isU, isV, isFirst, isSecond⟩ := h.members isA isB document
    obtain ⟨_, _, rfl, rfl⟩ := here.pair
    obtain rfl := isFirst _ rfl
    obtain rfl := isSecond _ rfl
    exact ⟨u, v, isU, isV, here⟩
  · rintro ⟨u, v, isU, isV, here⟩
    exact (takes_of_stands distinct takes here).run (h.document isU isV)

theorem run_tag_first (h : Pair e.tagName e.contentName A B s) :
    (e.read room).run s = .ok x ↔ 2 ≤ room ∧ ∃ t c content, Document t A ∧ Document c B ∧
      Named e.cases (room - 1) t content ∧ stands content c x := by
  rw [run_pair distinct grounded takes isA isB h]
  simp only [stands_tag_first distinct]
  grind

theorem run_content_first (h : Pair e.contentName e.tagName A B s) :
    (e.read room).run s = .ok x ↔ 2 ≤ room ∧ ∃ c t content, Document c A ∧ Document t B ∧
      Named e.cases (room - 1) t content ∧ content.Kept (room - 1) c x := by
  rw [run_pair distinct grounded takes isA isB h]
  simp only [stands_content_first distinct]
  grind

end Runs

end Tagged

end TargetQuery.Json
