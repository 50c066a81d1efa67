import TargetQuery.Json.Scalar
import TargetQuery.Proofs.Json.Lookup
import TargetQuery.Proofs.Json.NumberToken
import TargetQuery.Proofs.Json.Reading
import TargetQuery.Proofs.Json.StringToken

/-!
# Readers of values and what trees mean to them

A reader of values is measured by what a tree means to it, if anything. It is sound if what it gives
is the meaning of a value that stands there, and exact if it also takes every value that has a
meaning and refuses every other one as being of the wrong shape. Values without parts come first.
-/

namespace TargetQuery.Json

open Grammar Reader

variable {α β : Type}

/-- All strings are text, and all numbers have values. -/
inductive Tree.Legible : Tree → Prop
  | null : Legible .null
  | bool (b : Bool) : Legible (.bool b)
  | number {token : Bytes} {x : Number} : tokenValue? token = some x → Legible (.number token)
  | text (s : String) : Legible (.text (some s))
  | list {items : List Tree} : (∀ t ∈ items, Legible t) → Legible (.list items)
  | object {members : List (Option String × Tree)} :
      (∀ m ∈ members, m.1.isSome = true) → (∀ m ∈ members, Legible m.2) →
        Legible (.object members)

/-- What is read is the meaning of a value that stands there. -/
def Sound (r : Reader α) (meaning : Tree → Option α) : Prop :=
  ∀ n s x c, r ⟨n, s⟩ = .ok (x, c) →
    ∃ t a, Blank s a ∧ Grammar.Value t a c.rest ∧ meaning t = some x

/-- A value with a meaning is read, and one without is refused. -/
def Meets (value : Option α) (rest : Bytes) : Except Error (α × Cursor) → Prop :=
  match value with
  | some x => Leaves x rest
  | none => Misfits

/-- The reader decides about the values of a kind by what they mean. -/
def Exact (r : Reader α) (meaning : Tree → Option α) (kind : Tree → Prop) : Prop :=
  ∀ t s a rest, t.Legible → kind t → Blank s a → Grammar.Value t a rest → Delimited rest →
    Ends r s (Meets (meaning t) rest)

/-! ### The first byte of a value -/

/-- The bytes with which a value can begin. -/
def Tree.Opens : Tree → UInt8 → Prop
  | .null, b => b = letterN
  | .bool true, b => b = letterT
  | .bool false, b => b = letterF
  | .number _, b => b = Ascii.minus ∨ Ascii.isDigit b = true
  | .text _, b => b = Ascii.doubleQuote
  | .list _, b => b = Ascii.openBracket
  | .object _, b => b = Ascii.openBrace

theorem unsigned_head {s rest : Bytes} (h : Unsigned s rest) :
    ∃ b more, s = b :: more ∧ Ascii.isDigit b = true := by
  cases s with
  | nil => exact absurd h not_unsigned_nil
  | cons b more =>
    refine ⟨b, more, rfl, ?_⟩
    rcases unsigned_cons_iff.mp h with ⟨rfl, _⟩ | ⟨_, digit, _⟩
    · decide
    · exact digit

theorem Grammar.Number.ne_nil {s rest : Bytes} (h : Grammar.Number s rest) : s ≠ [] := by
  rintro rfl
  cases h with
  | positive h => exact not_unsigned_nil h

/-- The first byte of a value tells its kind. -/
theorem Grammar.Value.head {t : Tree} {s rest : Bytes} (h : Grammar.Value t s rest) :
    ∃ b more, s = b :: more ∧ t.Opens b := by
  cases h with
  | null | yes | no | list | object => exact ⟨_, _, rfl, rfl⟩
  | number _ h =>
    cases h with
    | positive h =>
      obtain ⟨b, more, rfl, digit⟩ := unsigned_head h
      exact ⟨b, more ++ rest, rfl, .inr digit⟩
    | negative _ => exact ⟨_, _, rfl, .inl rfl⟩
  | text h =>
    cases h with
    | strict _ => exact ⟨_, _, rfl, rfl⟩
    | loose _ => exact ⟨_, _, rfl, rfl⟩

theorem Tree.Opens.not_space {t : Tree} {b : UInt8} (h : t.Opens b) : isSpace b = false := by
  cases t with
  | number token =>
    rcases h with rfl | digit
    · decide
    · exact InNumber.not_space (.inl digit)
  | bool value =>
    cases value <;> (cases h; decide)
  | null | text | list | object =>
    cases h
    decide

theorem Grammar.Value.length_lt {t : Tree} {s rest : Bytes} (h : Grammar.Value t s rest) :
    rest.length < s.length := by
  cases h with
  | null | yes | no =>
    simp only [List.length_cons, List.length_append]
    omega
  | number rest h =>
    have nonempty : 0 < List.length _ := List.length_pos_of_ne_nil h.ne_nil
    rw [List.length_append]
    omega
  | text h => exact h.length_lt
  | list h =>
    have := h.length_le
    rw [List.length_cons]
    omega
  | object h =>
    have := h.length_le
    rw [List.length_cons]
    omega

/-- Apart from a minus and the digits, a byte opens values of one kind only. -/
theorem Tree.Opens.kind {t : Tree} {b : UInt8} (h : t.Opens b) :
    (b = letterN → t = .null) ∧ (b = letterT → t = .bool true) ∧
      (b = letterF → t = .bool false) ∧ (b = Ascii.doubleQuote → ∃ s, t = .text s) ∧
      (b = Ascii.openBracket → ∃ items, t = .list items) ∧
      (b = Ascii.openBrace → ∃ members, t = .object members) := by
  cases t with
  | number token =>
    have other : ∀ x : UInt8, ¬ InNumber x → x ≠ Ascii.minus → b ≠ x := by
      rintro x outside notMinus rfl
      rcases h with h | h
      · exact notMinus h
      · exact outside (.inl h)
    refine ⟨?_, ?_, ?_, ?_, ?_, ?_⟩ <;>
      exact fun e => absurd e (other _ (by decide) (by decide))
  | bool value =>
    cases value <;> (cases h; simp +decide)
  | null | text | list | object =>
    cases h
    simp +decide

theorem Grammar.Value.atToken {t : Tree} {s rest : Bytes} (h : Grammar.Value t s rest) :
    AtToken s := by
  obtain ⟨b, more, rfl, opens⟩ := h.head
  intro x hx
  obtain rfl : b = x := by simpa using hx
  exact opens.not_space

/-! ### Values of another kind -/

theorem reads_numberToken {token rest : Bytes} {x : Number} (positive : Bool)
    (h : Unsigned token [])
    (value : (numberToken positive ⟨0, token⟩).toOption.map (·.1) = some x)
    (delimited : Delimited rest) : Reads (numberToken positive) (token ++ rest) x rest :=
  (settled_numberToken h positive).reads value delimited

/-- What is read first only goes into the message. -/
theorem Reads.refuses {r : Reader β} {x : β} {s rest : Bytes} (h : Reads r s x rest)
    (m : β → Mismatch) : Refuses (r >>= fun y => (mismatch (m y) : Reader α)) s :=
  h.bind (refuses_mismatch _ _)

theorem tokenValue?_digit {b : UInt8} (digit : Ascii.isDigit b = true) (s : Bytes) :
    tokenValue? (b :: s) = (numberToken true ⟨0, b :: s⟩).toOption.map (·.1) := by
  have notMinus : b ≠ Ascii.minus := digit_not_sign digit ∘ .inr
  rw [tokenValue?]
  rintro more e
  exact notMinus (List.cons.inj e).1

theorem mistyped_digit {b : UInt8} (digit : Ascii.isDigit b = true) (expected : String) (n : Nat)
    (s : Bytes) : (mistyped expected : Reader α) ⟨n, b :: s⟩
      = (numberToken true >>= fun x => mismatch (.kind (.number x) expected)) ⟨n, b :: s⟩ := by
  have inNumber : InNumber b := .inl digit
  have notMinus : b ≠ Ascii.minus := digit_not_sign digit ∘ .inr
  have notN : b ≠ letterN := inNumber.ne (by decide)
  have notT : b ≠ letterT := inNumber.ne (by decide)
  have notF : b ≠ letterF := inNumber.ne (by decide)
  simp [mistyped, bind, StateT.bind, Except.bind, peek, notN, notT, notF, notMinus, digit]

/-- Whatever stands there, the message tells its kind. -/
theorem refuses_mistyped {t : Tree} {s rest : Bytes} (legible : t.Legible)
    (value : Grammar.Value t s rest) (delimited : Delimited rest) (expected : String) :
    Refuses (mistyped expected : Reader α) s := by
  intro n
  cases value with
  | null => exact (reads_word ull rest).refuses (fun _ => .kind .null expected) (n + 1)
  | yes => exact (reads_word rue rest).refuses (fun _ => .kind (.bool true) expected) (n + 1)
  | no => exact (reads_word alse rest).refuses (fun _ => .kind (.bool false) expected) (n + 1)
  | number _ h =>
    cases legible with
    | number value =>
      cases h with
      | negative h =>
        exact (reads_numberToken false h value delimited).refuses
          (fun x => .kind (.number x) expected) (n + 1)
      | positive h =>
        obtain ⟨b, more, rfl, digit⟩ := unsigned_head h
        rw [tokenValue?_digit digit] at value
        rw [List.cons_append, mistyped_digit digit]
        exact (reads_numberToken true h value delimited).refuses
          (fun x => .kind (.number x) expected) n
  | text h =>
    cases legible
    cases h with
    | strict h =>
      exact Reads.refuses (stringToken_of_chars h) (fun x => .kind (.text x) expected) (n + 1)
  | list h => exact refuses_mismatch _ _ n
  | object h => exact refuses_mismatch _ _ n

/-- A value of the wrong kind is never taken. -/
theorem stuck_mistyped (expected : String) : Stuck (mistyped expected : Reader α) := by
  refine Stuck.bind fun b => ?_
  cases b with
  | none => exact stuck_failNext _
  | some b =>
    simp only
    repeat' split
    · exact .bind fun _ => .bind fun _ => stuck_mismatch _
    · exact .bind fun _ => .bind fun _ => stuck_mismatch _
    · exact .bind fun _ => .bind fun _ => stuck_mismatch _
    · exact .bind fun _ => .bind fun _ => stuck_mismatch _
    · exact .bind fun _ => stuck_mismatch _
    · exact .bind fun _ => .bind fun _ => stuck_mismatch _
    · exact stuck_mismatch _
    · exact stuck_mismatch _
    · exact stuck_failNext _

/-! ### Truth values, strings and null -/

theorem Sound.length_lt {r : Reader α} {meaning : Tree → Option α} (h : Sound r meaning) {n : Nat}
    {s : Bytes} {x : α} {c : Cursor} (run : r ⟨n, s⟩ = .ok (x, c)) : c.rest.length < s.length := by
  obtain ⟨t, a, before, value, _⟩ := h n s x c run
  exact Nat.lt_of_lt_of_le value.length_lt before.length_le

theorem exact_boolValue : Exact boolValue Tree.bool? fun _ => True := by
  intro t s a rest legible _ before value delimited
  obtain ⟨b, more, rfl, opens⟩ := value.head
  refine Ends.peekToken before value.atToken ?_
  have kind := opens.kind
  by_cases yes : b = letterT
  · obtain rfl := kind.2.1 yes
    cases value
    exact .skip ((reads_word rue rest).bind (reads_pure true rest))
  by_cases no : b = letterF
  · obtain rfl := kind.2.2.1 no
    cases value
    exact .skip ((reads_word alse rest).bind (reads_pure false rest))
  · have other : t.bool? = none := by
      cases t with
      | bool value => cases value <;> cases opens <;> contradiction
      | _ => rfl
    simp only [List.head?_cons, beq_iff_eq, yes, no, if_false, other]
    exact refuses_mistyped legible value delimited _

theorem sound_boolValue : Sound boolValue Tree.bool? := by
  intro n s x c h
  obtain ⟨m, a, before, _, h⟩ := peekToken_bind_eq_ok h
  cases a with
  | nil => exact absurd h (stuck_failNext _ _ _)
  | cons b a =>
    simp only [List.head?_cons] at h
    split at h
    · next e =>
      obtain rfl := eq_of_beq e
      obtain ⟨rfl, rfl⟩ := skip_word_eq_ok h
      exact ⟨_, _, before, .yes _, rfl⟩
    split at h
    · next e =>
      obtain rfl := eq_of_beq e
      obtain ⟨rfl, rfl⟩ := skip_word_eq_ok h
      exact ⟨_, _, before, .no _, rfl⟩
    · exact absurd h (stuck_mistyped _ _ _)

theorem exact_textValue (expected : String) :
    Exact (textValue expected) Tree.text? fun _ => True := by
  intro t s a rest legible _ before value delimited
  obtain ⟨b, more, rfl, opens⟩ := value.head
  refine Ends.peekToken before value.atToken ?_
  by_cases quote : b = Ascii.doubleQuote
  · obtain ⟨text, rfl⟩ := opens.kind.2.2.2.1 quote
    cases legible
    cases value with
    | text h =>
      cases h with
      | strict h => exact .skip (stringToken_of_chars h)
  · have other : t.text? = none := by
      cases t with
      | text => exact absurd opens quote
      | _ => rfl
    simp only [List.head?_cons, beq_iff_eq, quote, if_false, other]
    exact refuses_mistyped legible value delimited _

theorem sound_textValue (expected : String) : Sound (textValue expected) Tree.text? := by
  intro n s x c h
  obtain ⟨m, a, before, _, h⟩ := peekToken_bind_eq_ok h
  cases a with
  | nil => exact absurd h (stuck_failNext _ _ _)
  | cons b a =>
    simp only [List.head?_cons] at h
    split at h
    · next e =>
      obtain rfl := eq_of_beq e
      exact ⟨_, _, before, .text (.strict (chars_of_stringToken h)), rfl⟩
    · exact absurd h (stuck_mistyped _ _ _)

theorem Exact.mono {r : Reader α} {meaning : Tree → Option α} {kind kind' : Tree → Prop}
    (h : Exact r meaning kind) (sub : ∀ t, kind' t → kind t) : Exact r meaning kind' :=
  fun t s a rest legible hk => h t s a rest legible (sub t hk)

theorem Exact.map {r : Reader α} {meaning : Tree → Option α} {kind : Tree → Prop}
    (h : Exact r meaning kind) (g : α → β) :
    Exact (g <$> r) (fun t => g <$> meaning t) kind := by
  intro t s a rest legible hk before value delimited
  have ends := h t s a rest legible hk before value delimited
  show Ends (g <$> r) s (Meets (g <$> meaning t) rest)
  cases hm : meaning t with
  | some x =>
    rw [hm] at ends
    exact Reads.map g ends
  | none =>
    rw [hm] at ends
    exact Refuses.map g ends

theorem Sound.map {r : Reader α} {meaning : Tree → Option α} (h : Sound r meaning) (g : α → β) :
    Sound (g <$> r) fun t => g <$> meaning t := by
  intro n s y c hr
  obtain ⟨x, read, rfl⟩ := map_eq_ok.mp hr
  obtain ⟨t, a, before, value, hm⟩ := h n s x c read
  exact ⟨t, a, before, value, congrArg (g <$> ·) hm⟩

theorem nullable_eq (r : Reader α) : nullable r = peekToken >>= fun b =>
    if b = some letterN then (do skip; word ull; pure none) else some <$> r := by
  refine congrArg (peekToken >>= ·) (funext fun b => ?_)
  split
  · rfl
  · next other => exact (if_neg other).symm

/-- Null is taken first, and everything else is left to the reader. -/
theorem exact_nullable {r : Reader α} {meaning : Tree → Option α} {kind : Tree → Prop}
    (h : Exact r meaning kind) :
    Exact (nullable r) (fun t => t.nullable? meaning) fun t => t = .null ∨ kind t := by
  intro t s a rest legible hk before value delimited
  obtain ⟨b, more, rfl, opens⟩ := value.head
  rw [nullable_eq]
  refine Ends.peekToken before value.atToken ?_
  by_cases null : b = letterN
  · obtain rfl := opens.kind.1 null
    cases value
    exact .skip ((reads_word ull rest).bind (reads_pure none rest))
  · have other : t ≠ .null := by
      rintro rfl
      exact null opens
    have ends := h.map some t _ _ rest legible (hk.resolve_left other) (.nil _) value delimited
    simp only [Tree.nullable?_of_ne other, List.head?_cons, Option.some.injEq, null, if_false]
    exact ends

/-- Null means nothing, and whatever else was read has the meaning of the reader. -/
theorem sound_nullable {r : Reader α} {meaning : Tree → Option α} (h : Sound r meaning) :
    Sound (nullable r) (fun t => t.nullable? meaning) := by
  intro n s x c run
  rw [nullable_eq] at run
  obtain ⟨m, a, before, stop, run⟩ := peekToken_bind_eq_ok run
  split at run
  · next null =>
    obtain ⟨more, rfl⟩ : ∃ more, a = letterN :: more := by
      cases a with
      | nil => cases null
      | cons b more => exact ⟨more, by rw [Option.some.inj null]⟩
    obtain ⟨rfl, rfl⟩ := skip_word_eq_ok run
    exact ⟨_, _, before, .null _, rfl⟩
  · next other =>
    obtain ⟨t, a', before', value, meant⟩ := h.map some m a x c run
    obtain rfl := before'.eq_of_atToken stop
    have notNull : t ≠ .null := by
      rintro rfl
      cases value
      exact other rfl
    exact ⟨t, a', before, value, (Tree.nullable?_of_ne notNull _).trans meant⟩

end TargetQuery.Json
