import TargetQuery.Json.Buffered
import TargetQuery.Proofs.Json.Completeness
import TargetQuery.Proofs.Json.NumberReading

/-!
# Values that are kept

What is kept of a value whose meaning is not known yet: all of it, if its strings are text, its
numbers have values, and there is room for its brackets. The reader of kept values keeps just that.
-/

namespace TargetQuery.Json

open Grammar Reader

def keptMember? (item : Tree → Option Buffered) (m : Option String × Tree) :
    Option (String × Buffered) := do
  let name ← m.1
  let b ← item m.2
  pure (name, b)

theorem mapM_cons_eq_some {α β : Type} {f : α → Option β} {x : α} {xs : List α} {ys : List β} :
    (x :: xs).mapM f = some ys ↔
      ∃ y more, f x = some y ∧ xs.mapM f = some more ∧ ys = y :: more := by
  simp only [List.mapM_cons, bind, pure, Option.bind_eq_some_iff, Option.some.injEq]
  grind

theorem mapM_eq_some_nil {α β : Type} {f : α → Option β} {xs : List α} :
    xs.mapM f = some [] ↔ xs = [] := by
  cases xs with
  | nil => simp
  | cons x xs => simp only [mapM_cons_eq_some, reduceCtorEq, and_false, exists_false]

theorem mapM_eq_some_cons {α β : Type} {f : α → Option β} {xs : List α} {y : β} {ys : List β} :
    xs.mapM f = some (y :: ys) ↔
      ∃ x more, xs = x :: more ∧ f x = some y ∧ more.mapM f = some ys := by
  cases xs with
  | nil => simp
  | cons x xs =>
    rw [mapM_cons_eq_some]
    grind

theorem keptMember?_eq_some {item : Tree → Option Buffered} {m : Option String × Tree}
    {entry : String × Buffered} : keptMember? item m = some entry ↔
      ∃ name b, m.1 = some name ∧ item m.2 = some b ∧ entry = (name, b) := by
  simp only [keptMember?, bind, pure, Option.bind_eq_some_iff, Option.some.injEq]
  grind

theorem mapM_keptMember?_cons {item : Tree → Option Buffered} {m : Option String × Tree}
    {written : List (Option String × Tree)} {kept : List (String × Buffered)} :
    (m :: written).mapM (keptMember? item) = some kept ↔
      ∃ name b more, m.1 = some name ∧ item m.2 = some b ∧
        written.mapM (keptMember? item) = some more ∧ kept = (name, b) :: more := by
  simp only [mapM_cons_eq_some, keptMember?_eq_some]
  grind

/-- What is kept of a value, given what is kept of those within its brackets, if there is room. -/
def Tree.keptWith? (item : Option (Tree → Option Buffered)) : Tree → Option Buffered
  | .null => some .null
  | .bool b => some (.bool b)
  | .number token => .number <$> tokenValue? token
  | .text s => .text <$> s
  | .list items => do
    let item ← item
    .list <$> items.mapM item
  | .object written => do
    let item ← item
    .object <$> written.mapM (keptMember? item)

/-- What is kept of a value with room for so many brackets. -/
def Tree.kept? : Nat → Tree → Option Buffered
  | 0 | 1 => Tree.keptWith? none
  | room + 2 => Tree.keptWith? (some (Tree.kept? (room + 1)))

variable {value : Reader Buffered} {item : Tree → Option Buffered} {s rest : Bytes}

/-! ### What was kept stands there -/

/-- Members in the buffer stand in the text, and were kept under their names. -/
theorem members_eq_ok (sound : Sound value item) (first : Bool) {fuel n : Nat}
    {kept : List (String × Buffered)} {c : Cursor}
    (h : members value fuel first ⟨n, s⟩ = .ok (kept, c)) :
    ∃ written rest, c.rest = Ascii.closeBrace :: rest ∧ MembersFrom first written s rest ∧
      written.mapM (keptMember? item) = some kept := by
  induction fuel generalizing first n s kept with
  | zero => exact absurd h (stuck_failNext _ _ _)
  | succ fuel ih =>
    obtain ⟨name, ⟨m, a⟩, named, next⟩ := bind_eq_ok.mp h
    have named := nameFollows_eq_ok named
    cases name with
    | none =>
      obtain ⟨rest, rfl, before⟩ := named
      obtain ⟨rfl, rfl⟩ := pure_eq_ok.mp next
      exact ⟨[], rest, rfl, membersFrom_nil_iff.mpr before, rfl⟩
    | some name =>
      obtain ⟨l, q, lead, before, quoted⟩ := named
      obtain ⟨_, ⟨k, x⟩, colon, next⟩ := bind_eq_ok.mp next
      obtain ⟨b, ⟨k', z⟩, read, next⟩ := bind_eq_ok.mp next
      obtain ⟨more, mid, others, next⟩ := bind_eq_ok.mp next
      obtain ⟨rfl, rfl⟩ := pure_eq_ok.mp next
      obtain ⟨t, y, between, stands, meant⟩ := sound _ _ _ _ read
      obtain ⟨written, rest, e, behind, meanings⟩ := ih false others
      refine ⟨(some name, t) :: written, rest, e, ?_, ?_⟩
      · exact membersFrom_cons_iff.mpr ⟨l, q, a, x, y, z, lead, before, quoted,
          colonToken_eq_ok colon, between, stands, behind⟩
      · simp [List.mapM_cons, keptMember?, meant, meanings]

/-- The members behind a brace and the brace that closes the object. -/
theorem members_of_enclosed (sound : Sound value item) {n : Nat}
    {kept : List (String × Buffered)} {c : Cursor}
    (h : enclosed closeObject (.ok <$> withFuel fun fuel => members value fuel true) ⟨n, s⟩
      = .ok (kept, c)) :
    ∃ written, Members written s c.rest ∧ written.mapM (keptMember? item) = some kept := by
  obtain ⟨mid, run, close⟩ := enclosed_eq_ok closeObject_closes h
  obtain ⟨found, read, same⟩ := map_eq_ok.mp run
  obtain rfl : found = kept := Except.ok.inj same
  obtain ⟨written, rest, e, stands, meant⟩ := members_eq_ok sound true read
  rw [e] at close
  obtain ⟨-, rfl⟩ := List.cons.inj (close.eq_of_atToken (atToken_cons rfl _))
  exact ⟨written, stands, meant⟩

variable {nested : Option (Reader Buffered)} {inside : Option (Tree → Option Buffered)}

/-- What was read into the buffer is what the value says. -/
theorem sound_anyValue (sound : Option.Rel Sound nested inside) :
    Sound (anyValue nested) (Tree.keptWith? inside) := by
  intro n s b c h
  obtain ⟨m, a, before, _, h⟩ := peekToken_bind_eq_ok h
  cases a with
  | nil => exact absurd h (stuck_failNext _ _ _)
  | cons x a =>
    simp only [List.head?_cons] at h
    split at h
    · next e =>
      obtain rfl := eq_of_beq e
      obtain ⟨rfl, rfl⟩ := skip_word_eq_ok h
      exact ⟨.null, _, before, .null _, rfl⟩
    split at h
    · next e =>
      obtain rfl := eq_of_beq e
      obtain ⟨rfl, rfl⟩ := skip_word_eq_ok h
      exact ⟨.bool true, _, before, .yes _, rfl⟩
    split at h
    · next e =>
      obtain rfl := eq_of_beq e
      obtain ⟨rfl, rfl⟩ := skip_word_eq_ok h
      exact ⟨.bool false, _, before, .no _, rfl⟩
    split at h
    · next e =>
      obtain rfl := eq_of_beq e
      obtain ⟨y, read, rfl⟩ := map_eq_ok.mp (skip_bind_cons m Ascii.minus a ▸ h)
      obtain ⟨token, stands, meant⟩ := value_of_minus read
      exact ⟨_, _, before, stands, congrArg (Buffered.number <$> ·) meant⟩
    split at h
    · next digit =>
      obtain ⟨y, read, rfl⟩ := map_eq_ok.mp h
      obtain ⟨token, stands, meant⟩ := value_of_digits digit read
      exact ⟨_, _, before, stands, congrArg (Buffered.number <$> ·) meant⟩
    split at h
    · next e =>
      obtain rfl := eq_of_beq e
      obtain ⟨y, read, rfl⟩ := map_eq_ok.mp (skip_bind_cons m Ascii.doubleQuote a ▸ h)
      exact ⟨.text (some y), _, before, .text (.strict (chars_of_stringToken read)), rfl⟩
    split at h
    · next e =>
      obtain rfl := eq_of_beq e
      cases sound with
      | none => exact absurd h (stuck_failNext _ _ _)
      | some sound =>
        dsimp only at h
        rw [skip_bind_cons] at h
        obtain ⟨kept, run, rfl⟩ := map_eq_ok.mp h
        obtain ⟨written, stands, meant⟩ := items_of_enclosed sound run
        exact ⟨.list written, _, before, .list stands, congrArg (Buffered.list <$> ·) meant⟩
    split at h
    · next e =>
      obtain rfl := eq_of_beq e
      cases sound with
      | none => exact absurd h (stuck_failNext _ _ _)
      | some sound =>
        dsimp only at h
        rw [skip_bind_cons] at h
        obtain ⟨kept, run, rfl⟩ := map_eq_ok.mp h
        obtain ⟨written, stands, meant⟩ := members_of_enclosed sound run
        exact ⟨.object written, _, before, .object stands, congrArg (Buffered.object <$> ·) meant⟩
    · exact absurd h (stuck_failNext _ _ _)

theorem sound_buffered : ∀ room, Sound (buffered room) (Tree.kept? room)
  | 0 | 1 => sound_anyValue .none
  | room + 2 => sound_anyValue (.some (sound_buffered (room + 1)))

/-! ### What can be kept is kept -/

/-- All members of an object are kept, if each of them can be. -/
theorem reads_keptMembers (complete : Complete value item) (first : Bool)
    {written : List (Option String × Tree)} {kept : List (String × Buffered)}
    (meant : written.mapM (keptMember? item) = some kept)
    (h : MembersFrom first written s rest) {fuel : Nat} (enough : written.length < fuel) :
    Reads (members value fuel first) s kept (Ascii.closeBrace :: rest) := by
  induction written generalizing first s fuel kept with
  | nil =>
    obtain ⟨fuel, rfl⟩ := Nat.exists_eq_add_of_lt enough
    obtain rfl := Option.some.inj meant
    have none := reads_nameFollows_none first (membersFrom_nil_iff.mp h)
    exact none.bind (reads_pure [] _)
  | cons m written ih =>
    obtain ⟨fuel, rfl⟩ := Nat.exists_eq_add_of_lt enough
    obtain ⟨name, t⟩ := m
    obtain ⟨name, b, more, rfl, here, others, rfl⟩ := mapM_keptMember?_cons.mp meant
    obtain ⟨l, q, a, x, y, z, lead, before, quoted, colon, between, stands, behind⟩ :=
      membersFrom_cons_iff.mp h
    refine (reads_nameFollows_some lead before quoted).bind ?_
    refine (reads_colonToken colon).bind ?_
    refine (complete t b here x y z between stands behind.delimited).bind ?_
    have enough : written.length < written.length + 1 + fuel := by omega
    exact (ih false others behind enough).bind (reads_pure _ _)

theorem anyValue_digit {b : UInt8} (digit : Ascii.isDigit b = true) {s a rest : Bytes}
    (before : Blank s (b :: a)) {x : Number} (h : Reads (numberToken true) (b :: a) x rest) :
    Reads (anyValue nested) s (.number x) rest := by
  have inNumber : InNumber b := .inl digit
  have notMinus : b ≠ Ascii.minus := digit_not_sign digit ∘ .inr
  have notN : b ≠ letterN := inNumber.ne (by decide)
  have notT : b ≠ letterT := inNumber.ne (by decide)
  have notF : b ≠ letterF := inNumber.ne (by decide)
  refine Ends.peekToken before (atToken_cons inNumber.not_space _) ?_
  simp only [List.head?_cons, beq_iff_eq, notN, notT, notF, notMinus, digit, if_true, if_false]
  exact h.map Buffered.number

/-- Every value that can be kept is kept. -/
theorem complete_anyValue (complete : Option.Rel Complete nested inside) :
    Complete (anyValue nested) (Tree.keptWith? inside) := by
  intro t b meant s a rest before stands delimited
  have stop := stands.atToken
  cases stands with
  | null =>
    obtain rfl := Option.some.inj meant
    exact .peekToken before stop (.skip ((reads_word ull rest).bind (reads_pure _ _)))
  | yes =>
    obtain rfl := Option.some.inj meant
    exact .peekToken before stop (.skip ((reads_word rue rest).bind (reads_pure _ _)))
  | no =>
    obtain rfl := Option.some.inj meant
    exact .peekToken before stop (.skip ((reads_word alse rest).bind (reads_pure _ _)))
  | number _ isNumber =>
    obtain ⟨x, value, rfl⟩ := Option.map_eq_some_iff.mp meant
    cases isNumber with
    | negative h =>
      have read := reads_numberToken false h value delimited
      exact .peekToken before stop (.skip (read.map Buffered.number))
    | positive h =>
      obtain ⟨d, more, rfl, digit⟩ := unsigned_head h
      rw [tokenValue?_digit digit] at value
      exact anyValue_digit digit before (reads_numberToken true h value delimited)
  | text quoted =>
    obtain ⟨text, rfl, rfl⟩ := Option.map_eq_some_iff.mp meant
    cases quoted with
    | strict chars =>
      exact .peekToken before stop (.skip (Reads.map Buffered.text (stringToken_of_chars chars)))
  | list stands =>
    obtain ⟨item, rfl, keeps⟩ := Option.bind_eq_some_iff.mp meant
    obtain ⟨kept, entries, rfl⟩ := Option.map_eq_some_iff.mp keeps
    cases complete with
    | some complete =>
      have inside := reads_elements (complete.forall₂_takes entries) true stands
        (Nat.lt_succ_of_le (Nat.le_trans (Nat.le_add_right _ _) stands.length_le))
      have verdict := inside.map fun kept => (.ok kept : Except Mismatch (List Buffered))
      exact .peekToken before stop
        (.skip ((reads_enclosed closeList_closes verdict).map Buffered.list))
  | object stands =>
    obtain ⟨item, rfl, keeps⟩ := Option.bind_eq_some_iff.mp meant
    obtain ⟨kept, entries, rfl⟩ := Option.map_eq_some_iff.mp keeps
    cases complete with
    | some complete =>
      have inside := reads_keptMembers complete true entries stands
        (Nat.lt_succ_of_le (Nat.le_trans (Nat.le_add_right _ _) stands.length_le))
      have verdict := inside.map fun kept => (.ok kept : Except Mismatch (List (String × Buffered)))
      exact .peekToken before stop
        (.skip ((reads_enclosed closeObject_closes verdict).map Buffered.object))

theorem complete_buffered : ∀ room, Complete (buffered room) (Tree.kept? room)
  | 0 | 1 => complete_anyValue .none
  | room + 2 => complete_anyValue (.some (complete_buffered (room + 1)))

/-! ### Kinds of kept values -/

variable {room : Nat} {t : Tree}

theorem keptWith?_eq_null : t.keptWith? inside = some .null ↔ t = .null := by
  cases t <;> simp [Tree.keptWith?, Option.bind_eq_some_iff]

theorem keptWith?_eq_text {s : String} :
    t.keptWith? inside = some (.text s) ↔ t = .text (some s) := by
  cases t <;> simp [Tree.keptWith?, Option.bind_eq_some_iff]

theorem kept?_eq (room : Nat) (t : Tree) : t.kept? room
    = t.keptWith? (if 2 ≤ room then some (Tree.kept? (room - 1)) else none) := by
  match room with
  | 0 | 1 | room + 2 => rfl

@[simp] theorem kept?_eq_null : t.kept? room = some .null ↔ t = .null := by
  rw [kept?_eq, keptWith?_eq_null]

@[simp] theorem kept?_eq_text {s : String} :
    t.kept? room = some (.text s) ↔ t = .text (some s) := by
  rw [kept?_eq, keptWith?_eq_text]

theorem kept?_eq_list {kept : List Buffered} : t.kept? room = some (.list kept) ↔
    ∃ items, t = .list items ∧ 2 ≤ room ∧ items.mapM (Tree.kept? (room - 1)) = some kept := by
  rw [kept?_eq]
  by_cases enough : 2 ≤ room
  · cases t <;> simp [Tree.keptWith?, enough]
  · cases t <;> simp [Tree.keptWith?, enough]

theorem kept?_eq_object {kept : List (String × Buffered)} : t.kept? room = some (.object kept) ↔
    ∃ written, t = .object written ∧ 2 ≤ room ∧
      written.mapM (keptMember? (Tree.kept? (room - 1))) = some kept := by
  rw [kept?_eq]
  by_cases enough : 2 ≤ room
  · cases t <;> simp [Tree.keptWith?, enough]
  · cases t <;> simp [Tree.keptWith?, enough]

theorem kept?_eq_number {x : Number} (h : t.kept? room = some (.number x)) :
    ∃ token, t = .number token := by
  rw [kept?_eq] at h
  cases t with
  | number token => exact ⟨token, rfl⟩
  | _ => simp [Tree.keptWith?, Option.bind_eq_some_iff] at h

end TargetQuery.Json
