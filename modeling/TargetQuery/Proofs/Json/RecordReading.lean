import TargetQuery.Json.Record
import TargetQuery.Proofs.Json.ObjectReading
import TargetQuery.Proofs.Json.SkippedValue

/-!
# Readers of records

A record is read as its tree says, given that its fields are: members in their order fill a draft,
names that are no fields are passed over, and a list fills the fields in their declared order.
-/

namespace TargetQuery.Json

open Grammar Reader

variable {σ α : Type}

/-- What a value means to a draft as the field of a name. -/
abbrev FieldMeaning (σ : Type) := String → σ → Tree → Option σ

namespace Record

/-- What a member means to a draft. A field may be filled once, and other names mean nothing. -/
def memberMeaning (r : Record σ α) (fill : FieldMeaning σ) : MemberMeaning σ := fun d name t =>
  match r.fields.find? (·.name == name) with
  | none => some d
  | some field => if field.filled d then none else fill field.name d t

/-- What the elements of a list mean to a draft as fields. Optional fields may be left out at the
end. -/
def listMeaning (fill : FieldMeaning σ) : List (RecordField σ) → σ → List Tree → Option σ
  | [], d, [] => some d
  | [], _, _ :: _ => none
  | field :: fields, d, [] => if field.optional then listMeaning fill fields d [] else none
  | field :: fields, d, t :: items =>
    fill field.name d t >>= fun d => listMeaning fill fields d items

/-- The record of a draft, if the draft is complete. -/
def complete? (r : Record σ α) (d : σ) : Option α := (r.complete d).toOption

def ofTree? (r : Record σ α) (fill : FieldMeaning σ) : Tree → Option α
  | .object members => foldTree (r.memberMeaning fill) r.empty members >>= r.complete?
  | .list items => listMeaning fill r.fields r.empty items >>= r.complete?
  | _ => none

/-- No list stands where an object should, here or as far as the fields ask for it. -/
def Keyed (r : Record σ α) (kind : String → Tree → Prop) : Tree → Prop
  | .object members => ∀ name t, (some name, t) ∈ members →
      ∀ field ∈ r.fields, field.name = name → kind name t
  | .list _ => False
  | _ => True

variable {r : Record σ α} {fill : FieldMeaning σ} {kind : String → Tree → Prop} {room : Nat}
  {s rest : Bytes}

theorem find?_eq_some {name : String} {field : RecordField σ}
    (h : r.fields.find? (·.name == name) = some field) :
    field ∈ r.fields ∧ field.name = name :=
  ⟨List.mem_of_find?_eq_some h, by simpa using List.find?_some h⟩

/-! ### Members -/

/-- A member means what the field of its name makes of it, and nothing if there is no such field. -/
theorem exact_memberStep
    (exact : ∀ field ∈ r.fields, ∀ d, Exact (field.read room d) (fill field.name d)
      (kind field.name)) :
    ExactStep (r.memberStep room) (r.memberMeaning fill)
      fun name t => ∀ field ∈ r.fields, field.name = name → kind name t := by
  intro d name t s a b rest legible hk colon between value delimited
  rw [memberStep, memberMeaning]
  cases found : r.fields.find? (·.name == name) with
  | none =>
    exact (reads_colonToken colon).bind
      (Reads.bind (skipValue_of_value between value delimited) (reads_pure (Except.ok d) rest))
  | some field =>
    obtain ⟨member, rfl⟩ := find?_eq_some found
    by_cases filled : field.filled d = true
    · simp only [filled, if_true]
      exact fun n => .inr ⟨.duplicate field.name, ⟨n, s⟩, rfl⟩
    · simp only [filled]
      exact (reads_colonToken colon).bind
        (judges_ok (exact field member d t a b rest legible (hk field member rfl) between value
          delimited))

/-- A member that was taken means what its field makes of it. -/
theorem sound_memberStep
    (sound : ∀ field ∈ r.fields, ∀ d, Sound (field.read room d) (fill field.name d)) :
    SoundStep (r.memberStep room) (r.memberMeaning fill) := by
  intro d name n s d' c h
  rw [memberStep] at h
  simp only [memberMeaning]
  cases found : r.fields.find? (·.name == name) with
  | none =>
    simp only [found] at h
    obtain ⟨_, ⟨m, a⟩, colon, h⟩ := bind_eq_ok.mp h
    obtain ⟨_, mid, skipped, h⟩ := bind_eq_ok.mp h
    obtain ⟨same, rfl⟩ := pure_eq_ok.mp h
    obtain ⟨t, b, between, value⟩ := value_of_skipValue skipped
    exact ⟨t, a, b, colonToken_eq_ok colon, between, value, by rw [Except.ok.inj same]⟩
  | some field =>
    simp only [found] at h
    obtain ⟨member, rfl⟩ := find?_eq_some found
    by_cases filled : field.filled d = true
    · rw [if_pos filled] at h
      cases (pure_eq_ok.mp h).1
    · rw [if_neg filled] at h
      obtain ⟨_, ⟨m, a⟩, colon, h⟩ := bind_eq_ok.mp h
      obtain ⟨d₁, read, same⟩ := map_eq_ok.mp h
      obtain rfl : d₁ = d' := Except.ok.inj same
      obtain ⟨t, b, between, value, meant⟩ := sound field member d m a d₁ c read
      exact ⟨t, a, b, colonToken_eq_ok colon, between, value, by simp [filled, meant]⟩

/-! ### Elements -/

/-- In front of the closing bracket only optional fields are left. -/
theorem listFields_close (fields : List (RecordField σ)) {i n : Nat} {d d' : σ} {c : Cursor}
    (h : r.listFields room fields i d ⟨n, Ascii.closeBracket :: s⟩
      = Except.ok (Except.ok d', c)) :
    c.rest = Ascii.closeBracket :: s ∧ listMeaning fill fields d [] = some d' := by
  induction fields generalizing n with
  | nil =>
    obtain ⟨same, rfl⟩ := pure_eq_ok.mp h
    exact ⟨rfl, by rw [listMeaning, Except.ok.inj same]⟩
  | cons field fields ih =>
    obtain ⟨m, none⟩ := reads_elementFollows_false (i == 0) (.nil _) n
    obtain ⟨follows, mid, here, h⟩ := bind_eq_ok.mp h
    obtain ⟨rfl, rfl⟩ := Prod.mk.inj (Except.ok.inj (none.symm.trans here))
    rw [listMeaning]
    by_cases optional : field.optional = true
    · simp only [Bool.false_eq_true, if_false, optional, if_true] at h ⊢
      exact ih h
    · simp only [Bool.false_eq_true, if_false, optional] at h
      cases (pure_eq_ok.mp h).1

/-- What has been read of the list is what the elements mean, once the list is closed there. -/
theorem listFields_eq_ok {fields : List (RecordField σ)}
    (sound : ∀ field ∈ fields, ∀ d, Sound (field.read room d) (fill field.name d))
    {i n : Nat} {d d' : σ} {c : Cursor}
    (h : r.listFields room fields i d ⟨n, s⟩ = Except.ok (Except.ok d', c))
    (close : Blank c.rest (Ascii.closeBracket :: rest)) :
    ∃ items, ItemsFrom (i == 0) items s rest ∧ listMeaning fill fields d items = some d' := by
  induction fields generalizing i n s d with
  | nil =>
    obtain ⟨same, rfl⟩ := pure_eq_ok.mp h
    exact ⟨[], itemsFrom_nil_iff.mpr close, by rw [listMeaning, Except.ok.inj same]⟩
  | cons field fields ih =>
    rw [List.forall_mem_cons] at sound
    obtain ⟨follows, ⟨m, a⟩, looked, next⟩ := bind_eq_ok.mp h
    have looked := elementFollows_eq_ok looked
    cases follows with
    | false =>
      obtain ⟨more, rfl, before⟩ := looked
      by_cases optional : field.optional = true
      · simp only [Bool.false_eq_true, if_false, optional, if_true] at next
        obtain ⟨left, meant⟩ := listFields_close fields next
        rw [left] at close
        obtain ⟨_, rfl⟩ := List.cons.inj (close.eq_of_atToken (atToken_cons rfl _))
        exact ⟨[], itemsFrom_nil_iff.mpr before, by rw [listMeaning, if_pos optional, meant]⟩
      · simp only [Bool.false_eq_true, if_false, optional] at next
        cases (pure_eq_ok.mp next).1
    | true =>
      obtain ⟨l, lead, before⟩ := looked
      obtain ⟨d₁, ⟨k, b⟩, read, next⟩ := bind_eq_ok.mp next
      obtain ⟨t, a', before', value, meant⟩ := sound.1 d m a d₁ ⟨k, b⟩ read
      obtain ⟨items, more, meanings⟩ := ih sound.2 next
      refine ⟨t :: items, ?_, ?_⟩
      · exact itemsFrom_cons_iff.mpr ⟨l, a', b, lead, before.trans before', value, more⟩
      · rw [listMeaning, meant]
        exact meanings

/-! ### Whole records -/

/-- A draft is complete in the end, or the record is turned down. -/
theorem judges_finish {content : Reader (Except Mismatch σ)} {value : Option σ}
    (h : Ends content s (Judges value rest)) :
    Ends (r.finish <$> content) s (Judges (value >>= r.complete?) rest) := by
  cases value with
  | none =>
    intro n
    rcases h n with ⟨m, k, e⟩ | ⟨m, c, e⟩
    · exact .inl ⟨m, k, by simp [Functor.map, StateT.map, bind, Except.bind, e]⟩
    · refine .inr ⟨m, c, ?_⟩
      simp [Functor.map, StateT.map, bind, Except.bind, e, pure, Except.pure, finish]
  | some d =>
    have finished := Reads.map r.finish h
    show Ends _ s (Judges (r.complete d).toOption rest)
    cases hd : r.complete d with
    | ok x =>
      have e : r.finish (.ok d) = .ok x := by simp [finish, bind, Except.bind, hd, Except.mapError]
      rw [e] at finished
      exact finished
    | error name =>
      have e : r.finish (.ok d) = .error (.missing name) := by
        simp [finish, bind, Except.bind, hd, Except.mapError]
      rw [e] at finished
      intro n
      obtain ⟨m, run⟩ := finished n
      exact .inr ⟨.missing name, _, run⟩

/-- A record is read exactly if its fields are. -/
theorem exact_read (enough : 2 ≤ room)
    (exact : ∀ field ∈ r.fields, ∀ d, Exact (field.read (room - 1) d) (fill field.name d)
      (kind field.name)) :
    Exact (r.read room) (r.ofTree? fill) (r.Keyed kind) := by
  intro t s a rest legible keyed before value delimited
  obtain ⟨b, more, rfl, opens⟩ := value.head
  refine Ends.peekToken before value.atToken ?_
  cases t with
  | list => exact keyed.elim
  | object members =>
    cases legible with
    | object named legible =>
      cases value with
      | object value =>
        have inside := judges_foldMembers (exact_memberStep exact) true r.empty
          named legible keyed value
          (Nat.lt_succ_of_le (Nat.le_trans (Nat.le_add_right _ _) value.length_le))
        exact (reads_openBracket enough _ _).bind
          (meets_enclosed closeObject_closes (judges_finish inside))
  | null | bool | number | text =>
    have notList : b ≠ Ascii.openBracket := by
      rintro rfl
      obtain ⟨_, e⟩ := opens.kind.2.2.2.2.1 rfl
      cases e
    have notObject : b ≠ Ascii.openBrace := by
      rintro rfl
      obtain ⟨_, e⟩ := opens.kind.2.2.2.2.2 rfl
      cases e
    simp only [List.head?_cons, beq_iff_eq, notList, notObject, if_false]
    exact refuses_mistyped legible value delimited _

theorem finish_eq_ok {verdict : Except Mismatch σ} {x : α} (h : r.finish verdict = .ok x) :
    ∃ d, verdict = .ok d ∧ r.complete? d = some x := by
  cases verdict with
  | error m => cases h
  | ok d =>
    refine ⟨d, rfl, ?_⟩
    cases hd : r.complete d with
    | error name => simp [finish, bind, Except.bind, hd, Except.mapError] at h
    | ok y =>
      obtain rfl : y = x := by simpa [finish, bind, Except.bind, hd, Except.mapError] using h
      rw [complete?, hd]
      rfl

/-- A record that was read is what its text says. -/
theorem sound_read
    (sound : ∀ field ∈ r.fields, ∀ room d, Sound (field.read room d) (fill field.name d))
    (room : Nat) : Sound (r.read room) (r.ofTree? fill) := by
  intro n s x c h
  obtain ⟨m, a, before, _, h⟩ := peekToken_bind_eq_ok h
  cases a with
  | nil => exact absurd h (stuck_failNext _ _ _)
  | cons b a =>
    simp only [List.head?_cons] at h
    split at h
    · next e =>
      obtain rfl := eq_of_beq e
      obtain ⟨_, ⟨k, a'⟩, opened, inside⟩ := bind_eq_ok.mp h
      obtain ⟨rfl, rfl⟩ := openBracket_eq_ok opened
      obtain ⟨mid, run, close⟩ := enclosed_eq_ok closeList_closes inside
      obtain ⟨verdict, read, finished⟩ := map_eq_ok.mp run
      obtain ⟨d, rfl, complete⟩ := finish_eq_ok finished
      obtain ⟨items, value, meant⟩ :=
        listFields_eq_ok (fun field h => sound field h (room - 1)) read close
      exact ⟨.list items, _, before, .list value, by simp [ofTree?, meant, complete]⟩
    split at h
    · next e =>
      obtain rfl := eq_of_beq e
      obtain ⟨_, ⟨k, a'⟩, opened, inside⟩ := bind_eq_ok.mp h
      obtain ⟨rfl, rfl⟩ := openBracket_eq_ok opened
      obtain ⟨mid, run, close⟩ := enclosed_eq_ok closeObject_closes inside
      obtain ⟨verdict, read, finished⟩ := map_eq_ok.mp run
      obtain ⟨d, rfl, complete⟩ := finish_eq_ok finished
      obtain ⟨members, rest, e, value, meant⟩ := foldMembers_eq_ok
        (sound_memberStep fun field h => sound field h (room - 1)) true read
      rw [e] at close
      obtain ⟨_, rfl⟩ := List.cons.inj (close.eq_of_atToken (atToken_cons rfl _))
      exact ⟨.object members, _, before, .object value, by simp [ofTree?, meant, complete]⟩
    · exact absurd h (stuck_mistyped _ _ _)

end Record

end TargetQuery.Json
