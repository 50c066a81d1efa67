import TargetQuery.Proofs.Json.Taking

/-!
# What has a meaning is read

A reader is complete for a meaning if it takes every value that has one. This is the converse of
soundness, and again it is silent about values without a meaning. Lists and records are taken if
their parts are: an object with all its members, among them the unknown ones with any value, and a
record in the form of a list with optional fields left out at its end.
-/

namespace TargetQuery.Json

open Grammar Reader

variable {α β σ : Type}

/-- Every value with a meaning is taken as what it means. -/
def Complete (r : Reader α) (meaning : Tree → Option α) : Prop :=
  ∀ t x, meaning t = some x → Takes r t x

theorem Complete.map {r : Reader α} {meaning : Tree → Option α} (h : Complete r meaning)
    (f : α → β) : Complete (f <$> r) fun t => f <$> meaning t := by
  intro t y meant
  obtain ⟨x, here, rfl⟩ := Option.map_eq_some_iff.mp meant
  exact (h t x here).map f

theorem complete_textValue (expected : String) : Complete (textValue expected) Tree.text? := by
  intro t x meant
  obtain rfl := Tree.text?_eq_some.mp meant
  exact takes_textValue expected x

theorem complete_boolValue : Complete boolValue Tree.bool? := by
  intro t x meant
  cases t with
  | bool b =>
    obtain rfl := Option.some.inj meant
    exact takes_boolValue b
  | _ => cases meant

theorem complete_nullable {r : Reader α} {meaning : Tree → Option α} (h : Complete r meaning) :
    Complete (nullable r) fun t => t.nullable? meaning := by
  intro t x meant s a rest before value delimited
  obtain ⟨b, more, rfl, opens⟩ := value.head
  rw [nullable_eq]
  refine Ends.peekToken before value.atToken ?_
  by_cases null : b = letterN
  · obtain rfl := opens.kind.1 null
    obtain rfl := Option.some.inj meant
    cases value
    exact .skip ((reads_word ull rest).bind (reads_pure none rest))
  · have other : t ≠ .null := by
      rintro rfl
      exact null opens
    have inside := (Tree.nullable?_of_ne other meaning).symm.trans meant
    simp only [List.head?_cons, Option.some.injEq, null, if_false]
    exact h.map some t x inside _ _ rest (.nil _) value delimited

theorem Complete.forall₂_takes {item : Reader α} {meaning : Tree → Option α}
    (h : Complete item meaning) {items : List Tree} {xs : List α}
    (meant : items.mapM meaning = some xs) : List.Forall₂ (Takes item) items xs := by
  induction items generalizing xs with
  | nil =>
    obtain rfl := Option.some.inj meant
    exact .nil
  | cons t items ih =>
    rw [List.mapM_cons] at meant
    obtain ⟨x, here, meant⟩ := Option.bind_eq_some_iff.mp meant
    obtain ⟨others, more, meant⟩ := Option.bind_eq_some_iff.mp meant
    obtain rfl := Option.some.inj meant
    exact .cons (h t x here) (ih more)

theorem complete_listValue {item : Nat → Reader α} {meaning : Tree → Option α} {room : Nat}
    (enough : 2 ≤ room) (h : Complete (item (room - 1)) meaning) :
    Complete (listValue item room) fun t => t.list? meaning := by
  intro t xs meant
  cases t with
  | list items => exact takes_listValue enough (h.forall₂_takes meant)
  | _ => cases meant

theorem reads_closed {content : Reader (Except Mismatch α)} {x : α} {s left rest : Bytes}
    (blank : Blank left (Ascii.closeBracket :: rest)) (h : Reads content s (.ok x) left) :
    Reads (enclosed closeList content) s x rest := by
  intro n
  obtain ⟨m, run⟩ := h n
  obtain ⟨k, seen⟩ := skipSpace_of_blank blank (atToken_cons rfl _) m
  exact ⟨k + 1, by simp [enclosed, bind, Except.bind, run, closeList_seeks.found seen, Except.map]⟩

/-! ### Records -/

namespace Record

variable {r : Record σ α} {fill : FieldMeaning σ} {room : Nat} {s rest : Bytes}

/-- A member is taken as what it means: an unknown one is passed over. -/
theorem stepTakes_of_memberMeaning
    (complete : ∀ field ∈ r.fields, ∀ d, Complete (field.read room d) (fill field.name d))
    {d d' : σ} {name : String} {t : Tree} (meant : r.memberMeaning fill d name t = some d') :
    StepTakes (r.memberStep room) d name t d' := by
  rw [memberMeaning] at meant
  cases found : r.fields.find? (·.name == name) with
  | none =>
    simp only [found, Option.some.injEq] at meant
    subst meant
    intro s a b rest colon between value delimited
    rw [memberStep, found]
    exact (reads_colonToken colon).bind
      (Reads.bind (skipValue_of_value between value delimited) (reads_pure (Except.ok d) rest))
  | some field =>
    obtain ⟨member, rfl⟩ := find?_eq_some found
    simp only [found] at meant
    split at meant
    · cases meant
    · next fresh =>
      exact stepTakes found (eq_false_of_ne_true fresh) (complete field member d t d' meant)

/-- Members whose fields are read completely are taken, one by one. -/
theorem stepsTake_of_foldTree
    (complete : ∀ field ∈ r.fields, ∀ d, Complete (field.read room d) (fill field.name d))
    {d d' : σ} {members : MemberList}
    (meant : foldTree (r.memberMeaning fill) d members = some d') :
    StepsTake (r.memberStep room) d members d' := by
  induction members generalizing d with
  | nil =>
    obtain rfl := Option.some.inj meant
    exact .nil d
  | cons m members ih =>
    obtain ⟨name, t⟩ := m
    cases name with
    | none => cases meant
    | some name =>
      rw [foldTree_cons] at meant
      obtain ⟨d₁, here, others⟩ := Option.bind_eq_some_iff.mp meant
      exact .cons (stepTakes_of_memberMeaning complete here) (ih others)

/-- The fields of a list are read up to white space before the bracket that closes it. -/
theorem reads_listFields {fields : List (RecordField σ)}
    (complete : ∀ field ∈ fields, ∀ d, Complete (field.read room d) (fill field.name d))
    {items : List Tree} {d d' : σ} (meant : listMeaning fill fields d items = some d') {i : Nat}
    (h : ItemsFrom (i == 0) items s rest) :
    ∃ left, Blank left (Ascii.closeBracket :: rest) ∧
      Reads (r.listFields room fields i d) s (.ok d') left := by
  induction fields generalizing items d i s with
  | nil =>
    cases items with
    | nil =>
      obtain rfl := Option.some.inj meant
      exact ⟨s, itemsFrom_nil_iff.mp h, reads_pure _ s⟩
    | cons t items => cases meant
  | cons field fields ih =>
    rw [List.forall_mem_cons] at complete
    cases items with
    | nil =>
      rw [listMeaning] at meant
      split at meant
      · next optional =>
        have closes := itemsFrom_nil_iff.mp h
        obtain ⟨left, blank, reads⟩ := ih complete.2 meant (i := i)
          (itemsFrom_nil_iff.mpr (.nil _))
        refine ⟨left, blank, (reads_elementFollows_false _ closes).bind ?_⟩
        simp only [Bool.false_eq_true, if_false, optional, if_true]
        exact reads
      · cases meant
    | cons t items =>
      obtain ⟨d₁, here, others⟩ := Option.bind_eq_some_iff.mp meant
      obtain ⟨l, a, b, lead, before, value, more⟩ := itemsFrom_cons_iff.mp h
      obtain ⟨left, blank, reads⟩ := ih complete.2 others (i := i + 1) more
      refine ⟨left, blank, (reads_elementFollows_true lead before value).bind ?_⟩
      exact (complete.1 d t d₁ here _ _ _ (.nil a) value more.delimited).bind reads

theorem finish_of_complete? {d : σ} {x : α} (h : r.complete? d = some x) :
    r.finish (.ok d) = .ok x := by
  rw [complete?] at h
  cases completed : r.complete d with
  | error name =>
    rw [completed] at h
    cases h
  | ok y =>
    rw [completed] at h
    obtain rfl := Option.some.inj h
    simp [finish, bind, Except.bind, completed, Except.mapError]

/-- A record is complete if its fields are. -/
theorem complete_read (enough : 2 ≤ room)
    (complete : ∀ field ∈ r.fields, ∀ d, Complete (field.read (room - 1) d) (fill field.name d)) :
    Complete (r.read room) (r.ofTree? fill) := by
  intro t x meant s a rest before value delimited
  obtain ⟨b, more, rfl, opens⟩ := value.head
  refine Ends.peekToken before value.atToken ?_
  cases t with
  | object members =>
    obtain ⟨d, folded, completed⟩ := Option.bind_eq_some_iff.mp meant
    cases value with
    | object value =>
      have inside := (reads_members (stepsTake_of_foldTree complete folded) value).map r.finish
      rw [finish_of_complete? completed] at inside
      exact (reads_openBracket enough _ _).bind (reads_enclosed closeObject_closes inside)
  | list items =>
    obtain ⟨d, filled, completed⟩ := Option.bind_eq_some_iff.mp meant
    cases value with
    | list value =>
      obtain ⟨left, blank, reads⟩ := reads_listFields (r := r) complete filled (i := 0) value
      have inside := reads.map r.finish
      rw [finish_of_complete? completed] at inside
      exact (reads_openBracket enough _ _).bind (reads_closed blank inside)
  | _ => cases meant

end Record

end TargetQuery.Json
