import TargetQuery.Proofs.Json.NumberGrammar

/-!
# Elements and members one at a time

The content of a bracket from one of its entries on: at the beginning an entry stands at once, and
later behind a comma. An entry leaves the content from the next one on, whether it is the last or
not.
-/

namespace TargetQuery.Json.Grammar

/-- What leads to an entry: nothing in front of the first one, a comma in front of the others. -/
def Lead (first : Bool) (s rest : Bytes) : Prop :=
  if first then s = rest else Blank s (Ascii.comma :: rest)

/-- Elements from one of them on, and the bracket that closes the list. -/
def ItemsFrom (first : Bool) (items : List Tree) (s rest : Bytes) : Prop :=
  if first then Items items s rest
  else items = [] ∧ Blank s (Ascii.closeBracket :: rest) ∨
    ∃ a, Blank s (Ascii.comma :: a) ∧ MoreItems items a rest

/-- Members from one of them on, and the brace that closes the object. -/
def MembersFrom (first : Bool) (members : List (Option String × Tree)) (s rest : Bytes) : Prop :=
  if first then Members members s rest
  else members = [] ∧ Blank s (Ascii.closeBrace :: rest) ∨
    ∃ a, Blank s (Ascii.comma :: a) ∧ MoreMembers members a rest

variable {first : Bool} {s rest : Bytes}

theorem itemsFrom_nil_iff :
    ItemsFrom first [] s rest ↔ Blank s (Ascii.closeBracket :: rest) := by
  cases first with
  | true =>
    constructor
    · intro h
      cases h with
      | nil h => exact h
    · exact .nil
  | false =>
    constructor
    · rintro (⟨_, h⟩ | ⟨_, _, more⟩)
      · exact h
      · cases more
    · exact fun h => .inl ⟨rfl, h⟩

theorem membersFrom_nil_iff :
    MembersFrom first [] s rest ↔ Blank s (Ascii.closeBrace :: rest) := by
  cases first with
  | true =>
    constructor
    · intro h
      cases h with
      | nil h => exact h
    · exact .nil
  | false =>
    constructor
    · rintro (⟨_, h⟩ | ⟨_, _, more⟩)
      · exact h
      · cases more
    · exact fun h => .inl ⟨rfl, h⟩

/-- Behind an element there is a comma and the next one, or the bracket. -/
theorem moreItems_cons_iff {t : Tree} {items : List Tree} :
    MoreItems (t :: items) s rest ↔
      ∃ a b, Blank s a ∧ Value t a b ∧ ItemsFrom false items b rest := by
  constructor
  · intro h
    cases h with
    | last h =>
      obtain ⟨before, value, after⟩ := h
      exact ⟨_, _, before, value, .inl ⟨rfl, after⟩⟩
    | cons h more =>
      obtain ⟨before, value, after⟩ := h
      exact ⟨_, _, before, value, .inr ⟨_, after, more⟩⟩
  · rintro ⟨a, b, before, value, ⟨rfl, after⟩ | ⟨c, after, more⟩⟩
    · exact .last (.mk before value after)
    · exact .cons (.mk before value after) more

/-- Behind a member there is a comma and the next one, or the brace. -/
theorem moreMembers_cons_iff {name : Option String} {t : Tree}
    {members : List (Option String × Tree)} :
    MoreMembers ((name, t) :: members) s rest ↔
      ∃ a b c d e, Blank s a ∧ Quoted name a b ∧ Blank b (Ascii.colon :: c) ∧ Blank c d ∧
        Value t d e ∧ MembersFrom false members e rest := by
  constructor
  · intro h
    cases h with
    | last h =>
      obtain ⟨before, quoted, colon, between, value, after⟩ := h
      exact ⟨_, _, _, _, _, before, quoted, colon, between, value, .inl ⟨rfl, after⟩⟩
    | cons h more =>
      obtain ⟨before, quoted, colon, between, value, after⟩ := h
      exact ⟨_, _, _, _, _, before, quoted, colon, between, value, .inr ⟨_, after, more⟩⟩
  · rintro ⟨a, b, c, d, e, before, quoted, colon, between, value, rest⟩
    rcases rest with ⟨rfl, after⟩ | ⟨f, after, more⟩
    · exact .last (.mk before quoted colon (.mk between value after))
    · exact .cons (.mk before quoted colon (.mk between value after)) more

theorem itemsFrom_cons_iff {t : Tree} {items : List Tree} :
    ItemsFrom first (t :: items) s rest ↔
      ∃ l a b, Lead first s l ∧ Blank l a ∧ Value t a b ∧ ItemsFrom false items b rest := by
  cases first with
  | true =>
    constructor
    · intro h
      cases h with
      | cons h =>
        obtain ⟨a, b, before, value, more⟩ := moreItems_cons_iff.mp h
        exact ⟨s, a, b, rfl, before, value, more⟩
    · rintro ⟨l, a, b, rfl, before, value, more⟩
      exact .cons (moreItems_cons_iff.mpr ⟨a, b, before, value, more⟩)
  | false =>
    constructor
    · rintro (⟨e, _⟩ | ⟨l, comma, h⟩)
      · cases e
      · obtain ⟨a, b, before, value, more⟩ := moreItems_cons_iff.mp h
        exact ⟨l, a, b, comma, before, value, more⟩
    · rintro ⟨l, a, b, comma, before, value, more⟩
      exact .inr ⟨l, comma, moreItems_cons_iff.mpr ⟨a, b, before, value, more⟩⟩

theorem membersFrom_cons_iff {name : Option String} {t : Tree}
    {members : List (Option String × Tree)} :
    MembersFrom first ((name, t) :: members) s rest ↔
      ∃ l a b c d e, Lead first s l ∧ Blank l a ∧ Quoted name a b ∧
        Blank b (Ascii.colon :: c) ∧ Blank c d ∧ Value t d e ∧
        MembersFrom false members e rest := by
  cases first with
  | true =>
    constructor
    · intro h
      cases h with
      | cons h =>
        obtain ⟨a, b, c, d, e, h⟩ := moreMembers_cons_iff.mp h
        exact ⟨s, a, b, c, d, e, rfl, h⟩
    · rintro ⟨l, a, b, c, d, e, rfl, h⟩
      exact .cons (moreMembers_cons_iff.mpr ⟨a, b, c, d, e, h⟩)
  | false =>
    constructor
    · rintro (⟨none, _⟩ | ⟨l, comma, h⟩)
      · cases none
      · obtain ⟨a, b, c, d, e, h⟩ := moreMembers_cons_iff.mp h
        exact ⟨l, a, b, c, d, e, comma, h⟩
    · rintro ⟨l, a, b, c, d, e, comma, h⟩
      exact .inr ⟨l, comma, moreMembers_cons_iff.mpr ⟨a, b, c, d, e, h⟩⟩

/-! ### What ends a number -/

theorem delimited_nil : Delimited [] := by
  simp [Delimited]

theorem delimited_cons {b : UInt8} (outside : ¬ InNumber b) (s : Bytes) : Delimited (b :: s) := by
  intro x hx
  obtain rfl : b = x := by simpa using hx
  exact outside

/-- White space ends a number too. -/
theorem Blank.delimited {a : Bytes} (h : Blank s a) (stop : Delimited a) : Delimited s := by
  cases h with
  | nil => exact stop
  | cons space _ => exact delimited_cons (fun inNumber => by simp [inNumber.not_space] at space) _

theorem ItemsFrom.delimited {items : List Tree} (h : ItemsFrom false items s rest) :
    Delimited s := by
  rcases h with ⟨_, h⟩ | ⟨a, h, _⟩
  · exact h.delimited (delimited_cons (by decide) _)
  · exact h.delimited (delimited_cons (by decide) _)

theorem MembersFrom.delimited {members : List (Option String × Tree)}
    (h : MembersFrom false members s rest) : Delimited s := by
  rcases h with ⟨_, h⟩ | ⟨a, h, _⟩
  · exact h.delimited (delimited_cons (by decide) _)
  · exact h.delimited (delimited_cons (by decide) _)

end TargetQuery.Json.Grammar
