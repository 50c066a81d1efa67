import TargetQuery.Json.Tagged
import TargetQuery.Proofs.Json.RecordReading

/-!
# What readers take

A reader takes a value as something if it gives just that wherever the value stands. This says less
than that the reader is exact, because it is silent about all other values. So it can be said of the
readers of tagged values without a word about a content that comes too early and has to be kept.
-/

namespace TargetQuery.Json

open Grammar Reader

variable {α β σ : Type} {r : Reader α} {t : Tree} {x : α} {s rest : Bytes}

/-- The reader takes the value as `x`, with any white space in front of it and behind it anything
that does not go on with a number. -/
def Takes (r : Reader α) (t : Tree) (x : α) : Prop :=
  ∀ s a rest, Blank s a → Grammar.Value t a rest → Delimited rest → Reads r s x rest

theorem Exact.takes {meaning : Tree → Option α} {kind : Tree → Prop} (exact : Exact r meaning kind)
    (legible : t.Legible) (h : kind t) (meant : meaning t = some x) : Takes r t x := by
  intro s a rest before value delimited
  have ends := exact t s a rest legible h before value delimited
  rw [meant] at ends
  exact ends

theorem Takes.map (h : Takes r t x) (f : α → β) : Takes (f <$> r) t (f x) :=
  fun s a rest before value delimited => (h s a rest before value delimited).map f

/-- A whole text of the value is read. -/
theorem Takes.run (h : Takes r t x) (document : Document t s) : r.run s = .ok x := by
  obtain ⟨before, value, after⟩ := document
  exact run_of_reads (h _ _ _ before value (after.delimited delimited_nil)) after

theorem takes_textValue (expected text : String) :
    Takes (textValue expected) (.text (some text)) text :=
  (exact_textValue expected).takes (.text text) trivial rfl

theorem takes_boolValue (b : Bool) : Takes boolValue (.bool b) b :=
  exact_boolValue.takes (.bool b) trivial rfl

/-- A name of the table is taken as its entry. -/
theorem takes_nameValue {table : List (String × α)} {name : String}
    (listed : table.lookup name = some x) (room : Nat) :
    Takes (nameValue table room) (.text (some name)) x := by
  intro s a rest before value delimited
  obtain ⟨b, more, rfl, rfl⟩ := value.head
  have chosen : Reads (demand (choose table name)) rest x rest := by
    rw [choose, listed]
    exact reads_pure x rest
  exact Ends.peekToken before value.atToken
    (Reads.bind (takes_textValue _ name _ _ _ (.nil _) value delimited) chosen)

/-- A verdict with a value in front of the closing bracket is that value behind it. -/
theorem reads_enclosed {close : Closing} {b : UInt8} {content : Reader (Except Mismatch α)}
    (closes : close.Closes b) (h : Reads content s (.ok x) (b :: rest)) :
    Reads (enclosed close content) s x rest := by
  have judged : Ends content s (Judges (some x) (b :: rest)) := h
  exact meets_enclosed closes judged

/-! ### Lists -/

/-- Elements that are taken one by one are taken as a list. -/
theorem reads_elements {item : Reader α} {items : List Tree} {xs : List α}
    (takes : List.Forall₂ (Takes item) items xs) (first : Bool)
    (h : ItemsFrom first items s rest) {fuel : Nat} (enough : items.length < fuel) :
    Reads (elements item fuel first) s xs (Ascii.closeBracket :: rest) := by
  induction takes generalizing first s fuel with
  | nil =>
    obtain ⟨fuel, rfl⟩ := Nat.exists_eq_add_of_lt enough
    have follows := reads_elementFollows_false first (itemsFrom_nil_iff.mp h)
    exact follows.bind (reads_pure [] _)
  | cons here more ih =>
    obtain ⟨fuel, rfl⟩ := Nat.exists_eq_add_of_lt enough
    obtain ⟨l, a, b, lead, before, value, others⟩ := itemsFrom_cons_iff.mp h
    refine (reads_elementFollows_true lead before value).bind ?_
    refine (here _ _ _ (.nil a) value others.delimited).bind ?_
    exact (ih false others (by simp only [List.length_cons]; omega)).bind (reads_pure _ _)

theorem takes_listValue {item : Nat → Reader α} {items : List Tree} {xs : List α} {room : Nat}
    (enough : 2 ≤ room) (takes : List.Forall₂ (Takes (item (room - 1))) items xs) :
    Takes (listValue item room) (.list items) xs := by
  intro s a rest before value delimited
  obtain ⟨b, more, rfl, rfl⟩ := value.head
  refine Ends.peekToken before value.atToken ?_
  cases value with
  | list value =>
    have inside := reads_elements takes true value
      (Nat.lt_succ_of_le (Nat.le_trans (Nat.le_add_right _ _) value.length_le))
    have verdict := inside.map fun xs => (.ok xs : Except Mismatch (List α))
    exact (reads_openBracket enough _ _).bind (reads_enclosed closeList_closes verdict)

/-! ### Objects -/

/-- The step goes on from one state to another with a member of the name. It starts behind the name.
-/
def StepTakes (step : σ → String → Reader (Except Mismatch σ)) (d : σ) (name : String) (t : Tree)
    (d' : σ) : Prop :=
  ∀ s a b rest, Blank s (Ascii.colon :: a) → Blank a b → Grammar.Value t b rest → Delimited rest →
    Reads (step d name) s (.ok d') rest

/-- The steps go on from one state to another with the members, one after the other. -/
inductive StepsTake (step : σ → String → Reader (Except Mismatch σ)) :
    σ → List (Option String × Tree) → σ → Prop
  | nil (d : σ) : StepsTake step d [] d
  | cons {d d' d'' : σ} {name : String} {t : Tree} {members : List (Option String × Tree)} :
      StepTakes step d name t d' → StepsTake step d' members d'' →
      StepsTake step d ((some name, t) :: members) d''

variable {step : σ → String → Reader (Except Mismatch σ)} {d d' : σ}
  {members : List (Option String × Tree)}

/-- Members that are taken one by one lead to the last draft. -/
theorem reads_foldMembers (takes : StepsTake step d members d') (first : Bool)
    (h : MembersFrom first members s rest) {fuel : Nat} (enough : members.length < fuel) :
    Reads (foldMembers step fuel first d) s (.ok d') (Ascii.closeBrace :: rest) := by
  induction takes generalizing first s fuel with
  | nil d =>
    obtain ⟨fuel, rfl⟩ := Nat.exists_eq_add_of_lt enough
    have none := reads_nameFollows_none first (membersFrom_nil_iff.mp h)
    exact none.bind (reads_pure (Except.ok d) _)
  | cons here more ih =>
    obtain ⟨fuel, rfl⟩ := Nat.exists_eq_add_of_lt enough
    obtain ⟨l, a, b, c, e, f, lead, before, quoted, colon, between, value, others⟩ :=
      membersFrom_cons_iff.mp h
    refine (reads_nameFollows_some lead before quoted).bind ?_
    refine (here _ _ _ _ colon between value others.delimited).bind ?_
    exact ih false others (by simp only [List.length_cons]; omega)

/-- The members behind a brace, with the fuel that the reader has for them. -/
theorem reads_members (takes : StepsTake step d members d') (h : Members members s rest) :
    Reads (withFuel fun fuel => foldMembers step fuel true d) s (.ok d')
      (Ascii.closeBrace :: rest) :=
  reads_foldMembers takes true h
    (Nat.lt_succ_of_le (Nat.le_trans (Nat.le_add_right _ _) h.length_le))

namespace Record

variable {r : Record σ α} {room : Nat}

theorem stepTakes {name : String} {field : RecordField σ}
    (found : r.fields.find? (·.name == name) = some field) (fresh : field.filled d = false)
    (takes : Takes (field.read room d) t d') : StepTakes (r.memberStep room) d name t d' := by
  intro s a b rest colon between value delimited
  rw [memberStep, found]
  simp only [fresh]
  exact (reads_colonToken colon).bind
    ((takes a b rest between value delimited).map Except.ok)

/-- An object is taken as the record of the draft that its members make. -/
theorem takes_read (enough : 2 ≤ room)
    (takes : StepsTake (r.memberStep (room - 1)) r.empty members d)
    (complete : r.complete d = .ok x) : Takes (r.read room) (.object members) x := by
  intro s a rest before value delimited
  obtain ⟨b, more, rfl, rfl⟩ := value.head
  refine Ends.peekToken before value.atToken ?_
  cases value with
  | object value =>
    have inside := (reads_members takes value).map r.finish
    have finished : r.finish (.ok d) = .ok x := by
      simp [finish, bind, Except.bind, complete, Except.mapError]
    rw [finished] at inside
    exact (reads_openBracket enough _ _).bind (reads_enclosed closeObject_closes inside)

end Record

namespace Tagged

variable {e : Tagged α} {content : Content α} {name : String} {room : Nat}

theorem stepTakes_tag (listed : e.cases.lookup name = some content) :
    StepTakes (e.memberStep room) .nothing e.tagName (.text (some name)) (.tag content) := by
  intro s a b rest colon between value delimited
  rw [memberStep, beq_self_eq_true, if_pos rfl]
  exact (reads_colonToken colon).bind
    ((takes_nameValue listed room a b rest between value delimited).bind (reads_pure _ _))

theorem stepTakes_content (other : e.contentName ≠ e.tagName)
    (takes : Takes (content.read room) t x) :
    StepTakes (e.memberStep room) (.tag content) e.contentName t (.both x) := by
  intro s a b rest colon between value delimited
  rw [memberStep, beq_eq_false_iff_ne.mpr other, beq_self_eq_true, if_neg Bool.false_ne_true,
    if_pos rfl]
  exact (reads_colonToken colon).bind
    ((takes a b rest between value delimited).bind (reads_pure _ _))

/-- An object is taken as the value of the draft that its members make. -/
theorem takes_read {draft : TaggedDraft α} (enough : 2 ≤ room)
    (takes : StepsTake (e.memberStep (room - 1)) .nothing members draft)
    (finished : e.finish draft = .ok x) : Takes (e.read room) (.object members) x := by
  intro s a rest before value delimited
  obtain ⟨b, more, rfl, rfl⟩ := value.head
  refine Ends.peekToken before value.atToken ?_
  cases value with
  | object value =>
    have verdict : Except.bind (Except.ok draft) e.finish = .ok x := finished
    refine (reads_openBracket enough _ _).bind (reads_enclosed closeObject_closes ?_)
    refine (reads_members takes value).bind ?_
    rw [verdict]
    exact reads_pure _ _

/-- A tag without content stands alone. -/
theorem takes_tag {title : String} (enough : 2 ≤ room)
    (listed : e.cases.lookup name = some (.nothing title x)) :
    Takes (e.read room) (.object [(some e.tagName, .text (some name))]) x :=
  takes_read enough (.cons (stepTakes_tag listed) (.nil _)) rfl

/-- The tag comes first and its content second. -/
theorem takes_tag_content (enough : 2 ≤ room) (other : e.contentName ≠ e.tagName)
    (listed : e.cases.lookup name = some content) (takes : Takes (content.read (room - 1)) t x) :
    Takes (e.read room) (.object [(some e.tagName, .text (some name)), (some e.contentName, t)])
      x :=
  takes_read enough (.cons (stepTakes_tag listed) (.cons (stepTakes_content other takes) (.nil _)))
    rfl

end Tagged

end TargetQuery.Json
