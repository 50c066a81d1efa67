import TargetQuery.Proofs.Json.LooseString
import TargetQuery.Proofs.Json.NumberGrammar

/-!
# Skipped values and their grammar

What a state of the skipping machine, under its open brackets, still asks of the text is written
down as `Owes`. One byte leads from what a state asks for to what the next one asks for, in both
directions; so a run that ends has skipped a value of the grammar, and every such value is skipped.
-/

namespace TargetQuery.Json

open Grammar

/-! ### What open brackets ask for -/

/-- The byte that closes a bracket. -/
def Frame.closer : Frame → UInt8
  | .list => Ascii.closeBracket
  | .object => Ascii.closeBrace

/-- Where an element or a member begins. -/
def Frame.entry : Frame → SkipState
  | .list => .value
  | .object => .key

/-- One element or member at least, and the closing bracket. -/
def More : Frame → Bytes → Bytes → Prop
  | .list, s, rest => ∃ items, MoreItems items s rest
  | .object, s, rest => ∃ members, MoreMembers members s rest

/-- The content of a bracket, and the closing bracket. -/
def Inside : Frame → Bytes → Bytes → Prop
  | .list, s, rest => ∃ items, Items items s rest
  | .object, s, rest => ∃ members, Members members s rest

/-- What stands behind an element or a member. -/
def Rest (f : Frame) (s rest : Bytes) : Prop :=
  Blank s (f.closer :: rest) ∨ ∃ a, Blank s (Ascii.comma :: a) ∧ More f a rest

/-- What stands behind a value, up to where the last bracket is closed. -/
def Closes : List Frame → Bytes → Bytes → Prop
  | [], s, rest => s = rest
  | f :: stack, s, rest => ∃ a, Rest f s a ∧ Closes stack a rest

/-- A value and what stands behind it. -/
def OwesValue (stack : List Frame) (s rest : Bytes) : Prop :=
  ∃ t a b, Blank s a ∧ Grammar.Value t a b ∧ Closes stack b rest

/-- A colon, a value and what stands behind it. -/
def OwesColon (stack : List Frame) (s rest : Bytes) : Prop :=
  ∃ a, Blank s (Ascii.colon :: a) ∧ OwesValue stack a rest

/-- A name, a colon, a value and what stands behind it. -/
def OwesKey (stack : List Frame) (s rest : Bytes) : Prop :=
  ∃ name a b, Blank s a ∧ Quoted name a b ∧ OwesColon stack b rest

/-- What a state and the open brackets ask for. -/
def Owes : SkipState → List Frame → Bytes → Bytes → Prop
  | .value, stack, s, rest => OwesValue stack s rest
  | .word left, stack, s, rest => ∃ a, s = left ++ a ∧ Closes stack a rest
  | .number st, stack, s, rest => ∃ a, NumberTail st s a ∧ Closes stack a rest
  | .text st, stack, s, rest => ∃ a, looseRest st s = some a ∧ Closes stack a rest
  | .key, stack, s, rest => OwesKey stack s rest
  | .keyText st, stack, s, rest => ∃ a, looseRest st s = some a ∧ OwesColon stack a rest
  | .colon, stack, s, rest => OwesColon stack s rest
  | .opened, [], _, _ => False
  | .opened, f :: stack, s, rest => ∃ a, Inside f s a ∧ Closes stack a rest
  | .after, stack, s, rest => Closes stack s rest

/-- What is asked for once a byte has had its effect. -/
def OwesAfter (step : SkipStep) (b : UInt8) (s rest : Bytes) : Prop :=
  match step with
  | .take st stack => Owes st stack s rest
  | .stop => rest = b :: s
  | .fail _ => False

theorem blank_cons_iff {b : UInt8} {s a : Bytes} :
    Blank (b :: s) a ↔ a = b :: s ∨ isSpace b = true ∧ Blank s a := by
  constructor
  · intro h
    cases h with
    | nil => exact .inl rfl
    | cons hb h => exact .inr ⟨hb, h⟩
  · rintro (rfl | ⟨hb, h⟩)
    · exact .nil _
    · exact .cons hb h

theorem moreItems_iff {s rest : Bytes} :
    (∃ items, MoreItems items s rest) ↔
      ∃ t a b, Blank s a ∧ Grammar.Value t a b ∧ Rest .list b rest := by
  constructor
  · rintro ⟨items, h⟩
    cases h with
    | last h =>
      obtain ⟨before, value, after⟩ := h
      exact ⟨_, _, _, before, value, .inl after⟩
    | cons h more =>
      obtain ⟨before, value, after⟩ := h
      exact ⟨_, _, _, before, value, .inr ⟨_, after, _, more⟩⟩
  · rintro ⟨t, a, b, before, value, after | ⟨c, after, items, more⟩⟩
    · exact ⟨[t], .last (.mk before value after)⟩
    · exact ⟨t :: items, .cons (.mk before value after) more⟩

theorem moreMembers_iff {s rest : Bytes} :
    (∃ members, MoreMembers members s rest) ↔
      ∃ name t a b c d e, Blank s a ∧ Quoted name a b ∧ Blank b (Ascii.colon :: c) ∧
        Blank c d ∧ Grammar.Value t d e ∧ Rest .object e rest := by
  constructor
  · rintro ⟨members, h⟩
    cases h with
    | last h =>
      obtain ⟨before, name, colon, between, value, after⟩ := h
      exact ⟨_, _, _, _, _, _, _, before, name, colon, between, value, .inl after⟩
    | cons h more =>
      obtain ⟨before, name, colon, between, value, after⟩ := h
      exact ⟨_, _, _, _, _, _, _, before, name, colon, between, value, .inr ⟨_, after, _, more⟩⟩
  · rintro ⟨name, t, a, b, c, d, e, before, hname, colon, between, value, after⟩
    rcases after with after | ⟨f, after, members, more⟩
    · exact ⟨[(name, t)], .last (.mk before hname colon (.mk between value after))⟩
    · exact ⟨(name, t) :: members, .cons (.mk before hname colon (.mk between value after)) more⟩

/-- Under a bracket, an element or a member and what follows it are the rest of the content. -/
theorem owes_entry_iff {f : Frame} {stack : List Frame} {s rest : Bytes} :
    Owes f.entry (f :: stack) s rest ↔ ∃ a, More f s a ∧ Closes stack a rest := by
  cases f with
  | list =>
    constructor
    · rintro ⟨t, a, b, before, value, c, after, closes⟩
      exact ⟨c, moreItems_iff.mpr ⟨t, a, b, before, value, after⟩, closes⟩
    · rintro ⟨c, more, closes⟩
      obtain ⟨t, a, b, before, value, after⟩ := moreItems_iff.mp more
      exact ⟨t, a, b, before, value, c, after, closes⟩
  | object =>
    constructor
    · rintro ⟨name, a, b, before, hname, c, colon, t, d, e, between, value, g, after, closes⟩
      exact ⟨g, moreMembers_iff.mpr
        ⟨name, t, a, b, c, d, e, before, hname, colon, between, value, after⟩, closes⟩
    · rintro ⟨g, more, closes⟩
      obtain ⟨name, t, a, b, c, d, e, before, hname, colon, between, value, after⟩ :=
        moreMembers_iff.mp more
      exact ⟨name, a, b, before, hname, c, colon, t, d, e, between, value, g, after, closes⟩

/-- A bracket is closed at once, or has an entry first. -/
theorem inside_iff {f : Frame} {s rest : Bytes} :
    Inside f s rest ↔ Blank s (f.closer :: rest) ∨ More f s rest := by
  cases f with
  | list =>
    constructor
    · rintro ⟨items, h⟩
      cases h with
      | nil h => exact .inl h
      | cons h => exact .inr ⟨_, h⟩
    · rintro (h | ⟨items, h⟩)
      · exact ⟨[], .nil h⟩
      · cases items with
        | nil => cases h
        | cons t items => exact ⟨t :: items, .cons h⟩
  | object =>
    constructor
    · rintro ⟨members, h⟩
      cases h with
      | nil h => exact .inl h
      | cons h => exact .inr ⟨_, h⟩
    · rintro (h | ⟨members, h⟩)
      · exact ⟨[], .nil h⟩
      · cases members with
        | nil => cases h
        | cons m members => exact ⟨m :: members, .cons h⟩

/-! ### One byte -/

/-- Behind an element there is white space, the closing bracket, or a comma with more. -/
theorem rest_cons_iff {f : Frame} {b : UInt8} {s rest : Bytes} :
    Rest f (b :: s) rest ↔
      isSpace b = true ∧ Rest f s rest ∨ b = f.closer ∧ s = rest ∨
        b = Ascii.comma ∧ More f s rest := by
  constructor
  · rintro (h | ⟨a, h, more⟩)
    · rcases blank_cons_iff.mp h with e | ⟨space, h⟩
      · obtain ⟨rfl, rfl⟩ := List.cons.inj e
        exact .inr (.inl ⟨rfl, rfl⟩)
      · exact .inl ⟨space, .inl h⟩
    · rcases blank_cons_iff.mp h with e | ⟨space, h⟩
      · obtain ⟨rfl, rfl⟩ := List.cons.inj e
        exact .inr (.inr ⟨rfl, more⟩)
      · exact .inl ⟨space, .inr ⟨a, h, more⟩⟩
  · rintro (⟨space, h | ⟨a, h, more⟩⟩ | ⟨rfl, rfl⟩ | ⟨rfl, more⟩)
    · exact .inl (.cons space h)
    · exact .inr ⟨a, .cons space h, more⟩
    · exact .inl (.nil _)
    · exact .inr ⟨s, .nil _, more⟩

theorem closer_not_space (f : Frame) : isSpace f.closer = false := by
  cases f <;> decide

theorem closer_ne_comma (f : Frame) : f.closer ≠ Ascii.comma := by
  cases f <;> decide

theorem skipAfterStep_cons (f : Frame) (below : List Frame) (b : UInt8) :
    skipAfterStep (f :: below) b =
      if isSpace b then .take .after (f :: below)
      else if b == Ascii.comma then .take f.entry (f :: below)
      else if b == f.closer then .take .after below
      else .fail (match f with | .list => .listContinuation | .object => .objectContinuation) := by
  cases f <;> rfl

/-- Behind a value. -/
theorem closes_cons_iff {stack : List Frame} {b : UInt8} {s rest : Bytes} :
    Closes stack (b :: s) rest ↔ OwesAfter (skipAfterStep stack b) b s rest := by
  cases stack with
  | nil => exact eq_comm
  | cons f below =>
    rw [Closes, skipAfterStep_cons]
    simp only [rest_cons_iff]
    by_cases space : isSpace b = true
    · have notClose : b ≠ f.closer := by
        rintro rfl
        simp [closer_not_space] at space
      have notComma : b ≠ Ascii.comma := by
        rintro rfl
        exact absurd space (by decide)
      simp [OwesAfter, Owes, Closes, space, notClose, notComma]
    by_cases comma : b = Ascii.comma
    · simp +decide [OwesAfter, owes_entry_iff, comma, (closer_ne_comma f).symm]
    by_cases close : b = f.closer
    · simp [OwesAfter, Owes, close, closer_not_space, closer_ne_comma]
    · simp [OwesAfter, space, comma, close]

theorem skipValueStep_space {stack : List Frame} {b : UInt8} (h : isSpace b = true) :
    skipValueStep stack b = .take .value stack := by
  simp [skipValueStep, h]

theorem skipValueStep_digit {stack : List Frame} {b : UInt8} (digit : Ascii.isDigit b = true)
    (notZero : b ≠ Ascii.zero) : skipValueStep stack b = .take (.number .integer) stack := by
  have inNumber : InNumber b := .inl digit
  simp [skipValueStep, inNumber.not_space, inNumber.ne (x := letterN) (by decide),
    inNumber.ne (x := letterT) (by decide), inNumber.ne (x := letterF) (by decide),
    inNumber.ne (x := Ascii.minus) (by decide), notZero, digit]

/-- After the first byte of a value the machine owes the rest of it. -/
theorem owes_of_value {t : Tree} {stack : List Frame} {b : UInt8} {s a rest : Bytes}
    (h : Grammar.Value t (b :: s) a) (closes : Closes stack a rest) :
    OwesAfter (skipValueStep stack b) b s rest := by
  generalize hs : b :: s = text at h
  cases h with
  | null =>
    obtain ⟨rfl, rfl⟩ := List.cons.inj hs
    exact ⟨a, rfl, closes⟩
  | yes =>
    obtain ⟨rfl, rfl⟩ := List.cons.inj hs
    exact ⟨a, rfl, closes⟩
  | no =>
    obtain ⟨rfl, rfl⟩ := List.cons.inj hs
    exact ⟨a, rfl, closes⟩
  | number _ h =>
    have h := h.append a
    rw [← hs] at h
    cases h with
    | negative h => exact ⟨a, h, closes⟩
    | positive h =>
      rcases unsigned_cons_iff.mp h with ⟨rfl, tail⟩ | ⟨notZero, digit, tail⟩
      · exact ⟨a, tail, closes⟩
      · rw [skipValueStep_digit digit notZero]
        exact ⟨a, tail, closes⟩
  | text h =>
    obtain ⟨s', rfl, loose⟩ := h.looseChars
    obtain ⟨rfl, rfl⟩ := List.cons.inj hs
    exact ⟨a, looseRest_eq_some_iff.mpr loose, closes⟩
  | list h =>
    obtain ⟨rfl, rfl⟩ := List.cons.inj hs
    exact ⟨a, ⟨_, h⟩, closes⟩
  | object h =>
    obtain ⟨rfl, rfl⟩ := List.cons.inj hs
    exact ⟨a, ⟨_, h⟩, closes⟩

theorem value_of_number {s rest : Bytes} (h : Grammar.Number s rest) :
    ∃ t, Grammar.Value t s rest := by
  obtain ⟨token, rfl, frame⟩ := Framed.number _ _ h
  have whole := frame []
  rw [List.append_nil] at whole
  exact ⟨.number token, .number rest whole⟩

/-- What the machine owes after one byte is the rest of a value that begins with this byte. -/
theorem value_of_owes {stack : List Frame} {b : UInt8} {s rest : Bytes}
    (notSpace : ¬ isSpace b = true) (h : OwesAfter (skipValueStep stack b) b s rest) :
    ∃ t a, Grammar.Value t (b :: s) a ∧ Closes stack a rest := by
  rw [skipValueStep, if_neg notSpace] at h
  split at h
  · next e =>
    obtain rfl := eq_of_beq e
    obtain ⟨a, rfl, closes⟩ := h
    exact ⟨.null, a, .null a, closes⟩
  split at h
  · next e =>
    obtain rfl := eq_of_beq e
    obtain ⟨a, rfl, closes⟩ := h
    exact ⟨.bool true, a, .yes a, closes⟩
  split at h
  · next e =>
    obtain rfl := eq_of_beq e
    obtain ⟨a, rfl, closes⟩ := h
    exact ⟨.bool false, a, .no a, closes⟩
  split at h
  · next e =>
    obtain rfl := eq_of_beq e
    obtain ⟨a, tail, closes⟩ := h
    obtain ⟨t, value⟩ := value_of_number (.negative tail)
    exact ⟨t, a, value, closes⟩
  split at h
  · next e =>
    obtain rfl := eq_of_beq e
    obtain ⟨a, tail, closes⟩ := h
    obtain ⟨t, value⟩ := value_of_number (.positive (unsigned_cons_iff.mpr (.inl ⟨rfl, tail⟩)))
    exact ⟨t, a, value, closes⟩
  split at h
  · next notZero digit =>
    obtain ⟨a, tail, closes⟩ := h
    have notZero : b ≠ Ascii.zero := by simpa using notZero
    obtain ⟨t, value⟩ := value_of_number
      (.positive (unsigned_cons_iff.mpr (.inr ⟨notZero, digit, tail⟩)))
    exact ⟨t, a, value, closes⟩
  split at h
  · next e =>
    obtain rfl := eq_of_beq e
    obtain ⟨a, loose, closes⟩ := h
    exact ⟨.text none, a, .text (.loose (looseRest_eq_some_iff.mp loose)), closes⟩
  split at h
  · next e =>
    obtain rfl := eq_of_beq e
    obtain ⟨a, ⟨items, h⟩, closes⟩ := h
    exact ⟨.list items, a, .list h, closes⟩
  split at h
  · next e =>
    obtain rfl := eq_of_beq e
    obtain ⟨a, ⟨members, h⟩, closes⟩ := h
    exact ⟨.object members, a, .object h, closes⟩
  · exact h.elim

/-- Where a value must begin. -/
theorem owesValue_cons_iff {stack : List Frame} {b : UInt8} {s rest : Bytes} :
    OwesValue stack (b :: s) rest ↔ OwesAfter (skipValueStep stack b) b s rest := by
  constructor
  · rintro ⟨t, a, c, before, value, closes⟩
    rcases blank_cons_iff.mp before with rfl | ⟨space, before⟩
    · exact owes_of_value value closes
    · rw [skipValueStep_space space]
      exact ⟨t, a, c, before, value, closes⟩
  · intro h
    by_cases space : isSpace b = true
    · rw [skipValueStep_space space] at h
      obtain ⟨t, a, c, before, value, closes⟩ := h
      exact ⟨t, a, c, .cons space before, value, closes⟩
    · obtain ⟨t, a, value, closes⟩ := value_of_owes space h
      exact ⟨t, b :: s, a, .nil _, value, closes⟩

/-- Where a name must begin. -/
theorem owesKey_cons_iff {stack : List Frame} {b : UInt8} {s rest : Bytes} :
    OwesKey stack (b :: s) rest ↔ OwesAfter (skipKeyStep stack b) b s rest := by
  rw [skipKeyStep]
  constructor
  · rintro ⟨name, a, c, before, quoted, colon⟩
    rcases blank_cons_iff.mp before with rfl | ⟨space, before⟩
    · obtain ⟨s', e, loose⟩ := quoted.looseChars
      obtain ⟨rfl, rfl⟩ := List.cons.inj e
      exact ⟨c, looseRest_eq_some_iff.mpr loose, colon⟩
    · rw [if_pos space]
      exact ⟨name, a, c, before, quoted, colon⟩
  · intro h
    split at h
    · next space =>
      obtain ⟨name, a, c, before, quoted, colon⟩ := h
      exact ⟨name, a, c, .cons space before, quoted, colon⟩
    split at h
    · next e =>
      obtain rfl := eq_of_beq e
      obtain ⟨c, loose, colon⟩ := h
      exact ⟨none, _, c, .nil _, .loose (looseRest_eq_some_iff.mp loose), colon⟩
    · exact h.elim

/-- What the machine owes before a colon, byte by byte. -/
theorem owesColon_cons_iff {stack : List Frame} {b : UInt8} {s rest : Bytes} :
    OwesColon stack (b :: s) rest ↔ OwesAfter (skipStep .colon stack b) b s rest := by
  rw [skipStep]
  constructor
  · rintro ⟨a, before, value⟩
    rcases blank_cons_iff.mp before with e | ⟨space, before⟩
    · obtain ⟨rfl, rfl⟩ := List.cons.inj e
      exact value
    · rw [if_pos space]
      exact ⟨a, before, value⟩
  · intro h
    split at h
    · next space =>
      obtain ⟨a, before, value⟩ := h
      exact ⟨a, .cons space before, value⟩
    split at h
    · next e =>
      obtain rfl := eq_of_beq e
      exact ⟨s, .nil _, h⟩
    · exact h.elim

/-- The step of the state in which an entry begins. -/
theorem owes_entry_cons_iff {f : Frame} {stack : List Frame} {b : UInt8} {s rest : Bytes} :
    Owes f.entry stack (b :: s) rest ↔ OwesAfter (skipStep f.entry stack b) b s rest := by
  cases f with
  | list => exact owesValue_cons_iff
  | object => exact owesKey_cons_iff

theorem skipStep_opened_cons (f : Frame) (below : List Frame) (b : UInt8) :
    skipStep .opened (f :: below) b =
      if isSpace b then .take .opened (f :: below)
      else if b == f.closer then .take .after below
      else skipStep f.entry (f :: below) b := by
  cases f <;> rfl

theorem skipStep_entry_space {f : Frame} {stack : List Frame} {b : UInt8}
    (h : isSpace b = true) : skipStep f.entry stack b = .take f.entry stack := by
  cases f with
  | list => exact skipValueStep_space h
  | object => simp [Frame.entry, skipStep, skipKeyStep, h]

/-- No entry begins with the byte that closes its bracket. -/
theorem skipStep_entry_closer (f : Frame) (stack : List Frame) :
    ∃ fault, skipStep f.entry stack f.closer = .fail fault := by
  cases f <;> exact ⟨_, rfl⟩

/-- Behind an opening bracket. -/
theorem owes_opened_cons_iff {f : Frame} {stack : List Frame} {b : UInt8} {s rest : Bytes} :
    Owes .opened (f :: stack) (b :: s) rest ↔
      OwesAfter (skipStep .opened (f :: stack) b) b s rest := by
  have split : ∀ t : Bytes, Owes .opened (f :: stack) t rest ↔
      (∃ a, Blank t (f.closer :: a) ∧ Closes stack a rest) ∨ Owes f.entry (f :: stack) t rest := by
    intro t
    rw [owes_entry_iff, Owes]
    simp only [inside_iff, or_and_right, exists_or]
  rw [split, owes_entry_cons_iff, skipStep_opened_cons]
  by_cases space : isSpace b = true
  · have notClose : b ≠ f.closer := by
      rintro rfl
      simp [closer_not_space] at space
    rw [skipStep_entry_space space, if_pos space, OwesAfter, OwesAfter, split]
    simp only [blank_cons_iff, List.cons.injEq, notClose.symm, space, false_and, false_or, true_and]
  · by_cases close : b = f.closer
    · obtain ⟨fault, fails⟩ := skipStep_entry_closer f (f :: stack)
      subst close
      simp [fails, OwesAfter, Owes, blank_cons_iff, closer_not_space]
    · have notClose : f.closer ≠ b := fun e => close e.symm
      simp [blank_cons_iff, space, close, notClose]

/-- A byte of a number, in a state: it goes on with the number, or with what stands behind it. -/
theorem skipNumberStep_eq (st : NumberState) (stack : List Frame) (b : UInt8) :
    skipNumberStep st stack b =
      match nextInNumber? st b with
      | some next => .take (.number next) stack
      | none =>
        if st.mayEnd && !Ascii.isDigit b then skipAfterStep stack b else .fail .badNumber := by
  have signs := @digit_not_sign b
  have zero : Ascii.isDigit Ascii.zero = true := by decide
  have dot : Ascii.isDigit Ascii.dot = false := by decide
  have low : Ascii.isDigit letterE = false := by decide
  have high : Ascii.isDigit capitalE = false := by decide
  have plus : Ascii.isDigit Ascii.plus = false := by decide
  have minus : Ascii.isDigit Ascii.minus = false := by decide
  cases st <;>
    simp only [skipNumberStep, nextInNumber?, NumberState.mayEnd, IsExponentLetter,
      Bool.or_eq_true, beq_iff_eq] <;>
    split <;> grind

/-- What stands behind a value is no byte of a number. -/
theorem inNumber_fails (f : Frame) (below : List Frame) {b : UInt8} (h : InNumber b) :
    ∃ fault, skipAfterStep (f :: below) b = .fail fault := by
  have notCloser : b ≠ f.closer := by
    cases f
    · exact h.ne (by decide)
    · exact h.ne (by decide)
  have notComma : b ≠ Ascii.comma := h.ne (by decide)
  exact ⟨_, by rw [skipAfterStep_cons, if_neg (by simp [h.not_space]),
    if_neg (by simpa using notComma), if_neg (by simpa using notCloser)]⟩

theorem delimited_of_closes {stack : List Frame} {b : UInt8} {s rest : Bytes}
    (delimited : Delimited rest) (h : Closes stack (b :: s) rest) : ¬ InNumber b := by
  cases stack with
  | nil =>
    obtain rfl : b :: s = rest := h
    exact delimited b rfl
  | cons f below =>
    intro inNumber
    obtain ⟨fault, fails⟩ := inNumber_fails f below inNumber
    rw [closes_cons_iff, fails] at h
    exact h

theorem owes_number_of_after {st : NumberState} {stack : List Frame} {b : UInt8} {s rest : Bytes}
    (h : OwesAfter (skipNumberStep st stack b) b s rest) :
    Owes (.number st) stack (b :: s) rest := by
  rw [skipNumberStep_eq] at h
  cases next : nextInNumber? st b with
  | some st' =>
    rw [next] at h
    obtain ⟨a, tail, closes⟩ := h
    exact ⟨a, numberTail_cons_iff.mpr (.inr ⟨st', next, tail⟩), closes⟩
  | none =>
    simp only [next] at h
    split at h
    · next ends =>
      rw [Bool.and_eq_true] at ends
      exact ⟨b :: s, numberTail_cons_iff.mpr (.inl ⟨ends.1, rfl⟩), closes_cons_iff.mpr h⟩
    · exact h.elim

/-- A delimited number owes after one byte what is left of it. -/
theorem owes_number_after {st : NumberState} {stack : List Frame} {b : UInt8} {s rest : Bytes}
    (delimited : Delimited rest) (h : Owes (.number st) stack (b :: s) rest) :
    OwesAfter (skipNumberStep st stack b) b s rest := by
  obtain ⟨a, tail, closes⟩ := h
  rw [skipNumberStep_eq]
  rcases numberTail_cons_iff.mp tail with ⟨ends, rfl⟩ | ⟨next, hn, tail⟩
  · have outside := delimited_of_closes delimited closes
    have notDigit : Ascii.isDigit b = false := by
      simpa using fun digit => outside (.inl digit)
    rw [nextInNumber?_eq_none ends outside]
    simp only [ends, notDigit, Bool.not_false, Bool.and_self, if_true]
    exact closes_cons_iff.mp closes
  · rw [hn]
    exact ⟨a, tail, closes⟩

/-! ### A whole run -/

/-- The states that the machine can be in. Some letters of a word are left, and none of them is
white space. -/
def Placed : SkipState → List Frame → Prop
  | .word left, _ => left ≠ [] ∧ ∀ b ∈ left, isSpace b = false
  | .opened, [] => False
  | _, _ => True

theorem owes_word_cons_iff {x b : UInt8} {left : Bytes} {stack : List Frame} {s rest : Bytes} :
    Owes (.word (x :: left)) stack (b :: s) rest ↔
      OwesAfter (skipStep (.word (x :: left)) stack b) b s rest := by
  by_cases e : b = x
  · subst e
    cases left with
    | nil => simp [Owes, skipStep, OwesAfter]
    | cons y left => simp [Owes, skipStep, OwesAfter]
  · simp [Owes, skipStep, OwesAfter, e]

theorem owes_text_cons_iff {st : StringState} {b : UInt8} {stack : List Frame} {s rest : Bytes} :
    Owes (.text st) stack (b :: s) rest ↔
      OwesAfter (skipStep (.text st) stack b) b s rest := by
  rw [Owes, skipStep, looseRest]
  by_cases close : st = .plain ∧ b = Ascii.doubleQuote
  · simp [close, OwesAfter, Owes]
  · rw [if_neg close, if_neg close]
    cases stringStep false st b with
    | ok step => exact Iff.rfl
    | error f => simp [OwesAfter]

theorem owes_keyText_cons_iff {st : StringState} {b : UInt8} {stack : List Frame}
    {s rest : Bytes} :
    Owes (.keyText st) stack (b :: s) rest ↔
      OwesAfter (skipStep (.keyText st) stack b) b s rest := by
  rw [Owes, skipStep, looseRest]
  by_cases close : st = .plain ∧ b = Ascii.doubleQuote
  · simp [close, OwesAfter, Owes]
  · rw [if_neg close, if_neg close]
    cases stringStep false st b with
    | ok step => exact Iff.rfl
    | error f => simp [OwesAfter]

/-- One byte leads from what a state asks for to what the next one does. A number may have ended
earlier, so to go forwards one has to know that nothing of it was left. -/
theorem owes_cons_iff {st : SkipState} {stack : List Frame} {b : UInt8} {s rest : Bytes}
    (placed : Placed st stack) :
    (OwesAfter (skipStep st stack b) b s rest → Owes st stack (b :: s) rest) ∧
      (Delimited rest → Owes st stack (b :: s) rest →
        OwesAfter (skipStep st stack b) b s rest) := by
  cases st with
  | value => exact ⟨owesValue_cons_iff.mpr, fun _ => owesValue_cons_iff.mp⟩
  | word left =>
    cases left with
    | nil => exact absurd rfl placed.1
    | cons x left => exact ⟨owes_word_cons_iff.mpr, fun _ => owes_word_cons_iff.mp⟩
  | number st => exact ⟨owes_number_of_after, owes_number_after⟩
  | text st => exact ⟨owes_text_cons_iff.mpr, fun _ => owes_text_cons_iff.mp⟩
  | key => exact ⟨owesKey_cons_iff.mpr, fun _ => owesKey_cons_iff.mp⟩
  | keyText st => exact ⟨owes_keyText_cons_iff.mpr, fun _ => owes_keyText_cons_iff.mp⟩
  | colon => exact ⟨owesColon_cons_iff.mpr, fun _ => owesColon_cons_iff.mp⟩
  | opened =>
    cases stack with
    | nil => exact placed.elim
    | cons f stack => exact ⟨owes_opened_cons_iff.mpr, fun _ => owes_opened_cons_iff.mp⟩
  | after => exact ⟨closes_cons_iff.mpr, fun _ => closes_cons_iff.mp⟩

theorem placed_after (stack : List Frame) : Placed .after stack := by
  simp [Placed]

/-- No letter of a word is white space. -/
theorem words_not_space (w : Bytes) (h : w ∈ [ull, rue, alse]) : ∀ b ∈ w, isSpace b = false := by
  have letters : ∀ w ∈ [ull, rue, alse], w.all (fun b => !isSpace b) = true := by
    simp only [List.forall_mem_cons]
    decide
  simpa using letters w h

theorem placed_word {w : Bytes} (h : w ∈ [ull, rue, alse]) (stack : List Frame) :
    Placed (.word w) stack := by
  refine ⟨?_, words_not_space w h⟩
  rintro rfl
  simp [ull, rue, alse] at h

theorem placed_of_skipAfterStep {stack stack' : List Frame} {b : UInt8} {st : SkipState}
    (h : skipAfterStep stack b = .take st stack') : Placed st stack' := by
  cases stack with
  | nil => cases h
  | cons f below =>
    rw [skipAfterStep_cons] at h
    split at h
    · cases h
      exact placed_after _
    split at h
    · cases h
      cases f <;> simp [Placed, Frame.entry]
    split at h
    · cases h
      exact placed_after _
    · cases h

theorem placed_of_skipValueStep {stack stack' : List Frame} {b : UInt8} {st : SkipState}
    (h : skipValueStep stack b = .take st stack') : Placed st stack' := by
  rw [skipValueStep] at h
  repeat' split at h
  all_goals cases h
  all_goals first
    | exact placed_word (by simp) stack
    | simp [Placed]

theorem placed_of_skipKeyStep {stack stack' : List Frame} {b : UInt8} {st : SkipState}
    (h : skipKeyStep stack b = .take st stack') : Placed st stack' := by
  grind [skipKeyStep, Placed]

/-- The machine stays among its states. -/
theorem placed_of_skipStep {st st' : SkipState} {stack stack' : List Frame} {b : UInt8}
    (placed : Placed st stack) (h : skipStep st stack b = .take st' stack') :
    Placed st' stack' := by
  cases st with
  | value => exact placed_of_skipValueStep h
  | word left =>
    cases left with
    | nil => exact absurd rfl placed.1
    | cons x left =>
      cases left with
      | nil => grind [skipStep, Placed]
      | cons y left => grind [skipStep, Placed]
  | number st =>
    rw [skipStep, skipNumberStep_eq] at h
    cases next : nextInNumber? st b with
    | some st' =>
      rw [next] at h
      cases h
      simp [Placed]
    | none =>
      simp only [next] at h
      split at h
      · exact placed_of_skipAfterStep h
      · cases h
  | text st => grind [skipStep, Placed]
  | key => exact placed_of_skipKeyStep h
  | keyText st => grind [skipStep, Placed]
  | colon => grind [skipStep, Placed]
  | opened =>
    cases stack with
    | nil => exact placed.elim
    | cons f below =>
      rw [skipStep_opened_cons] at h
      split at h
      · cases h
        simp [Placed]
      split at h
      · cases h
        exact placed_after _
      · cases f with
        | list => exact placed_of_skipValueStep h
        | object => exact placed_of_skipKeyStep h
  | after => exact placed_of_skipAfterStep h

/-! ### The end of the text -/

theorem blank_nil_iff {a : Bytes} : Blank [] a ↔ a = [] := by
  constructor
  · intro h
    cases h
    rfl
  · rintro rfl
    exact .nil _

theorem not_value_nil {t : Tree} {rest : Bytes} : ¬ Grammar.Value t [] rest := by
  intro h
  generalize hs : ([] : Bytes) = s at h
  cases h with
  | number _ h =>
    have h := h.append rest
    rw [← hs] at h
    cases h with
    | positive h => exact not_unsigned_nil h
  | text h =>
    subst hs
    cases h
  | null | yes | no | list | object => cases hs

theorem not_owesValue_nil {stack : List Frame} {rest : Bytes} : ¬ OwesValue stack [] rest := by
  rintro ⟨t, a, b, before, value, _⟩
  rw [blank_nil_iff.mp before] at value
  exact not_value_nil value

theorem not_owesKey_nil {stack : List Frame} {rest : Bytes} : ¬ OwesKey stack [] rest := by
  rintro ⟨name, a, b, before, quoted, _⟩
  rw [blank_nil_iff.mp before] at quoted
  cases quoted

theorem not_more_nil {f : Frame} {rest : Bytes} : ¬ More f [] rest := by
  intro h
  have owes : Owes f.entry [f] [] rest := owes_entry_iff.mpr ⟨rest, h, rfl⟩
  cases f with
  | list => exact not_owesValue_nil owes
  | object => exact not_owesKey_nil owes

theorem closes_nil_iff {stack : List Frame} {rest : Bytes} :
    Closes stack [] rest ↔ stack = [] ∧ rest = [] := by
  cases stack with
  | nil => simp [Closes, eq_comm]
  | cons f below => simp [Closes, Rest, blank_nil_iff]

/-- A state asks for no more than the text has if and only if the text may end there. -/
theorem owes_nil_iff {st : SkipState} {stack : List Frame} {rest : Bytes}
    (placed : Placed st stack) :
    Owes st stack [] rest ↔ skipEnd st stack = none ∧ rest = [] := by
  cases st with
  | value => simp [Owes, skipEnd, not_owesValue_nil]
  | word left =>
    cases left with
    | nil => exact absurd rfl placed.1
    | cons x left => simp [Owes, skipEnd]
  | number st =>
    cases ends : st.mayEnd <;> cases stack <;>
      simp [Owes, skipEnd, numberTail_nil_iff, closes_nil_iff, ends]
  | text st => simp [Owes, skipEnd, looseRest]
  | key => simp [Owes, skipEnd, not_owesKey_nil]
  | keyText st => simp [Owes, skipEnd, looseRest]
  | colon => simp [Owes, skipEnd, OwesColon, blank_nil_iff]
  | opened =>
    cases stack with
    | nil => exact placed.elim
    | cons f below => simp [Owes, skipEnd, inside_iff, blank_nil_iff, not_more_nil]
  | after => cases stack <;> simp [Owes, skipEnd, closes_nil_iff]

/-! ### A whole run -/

/-- A machine that came to its end has passed what it owed. -/
theorem owes_of_skipFrom {n : Nat} {st : SkipState} {stack : List Frame} {s : Bytes} {c : Cursor}
    (placed : Placed st stack) (h : skipFrom n st stack s = .ok c) : Owes st stack s c.rest := by
  induction s generalizing n st stack with
  | nil =>
    rw [skipFrom] at h
    cases ends : skipEnd st stack with
    | some f => simp [ends] at h
    | none =>
      simp only [ends, Except.ok.injEq] at h
      exact (owes_nil_iff placed).mpr ⟨ends, by rw [← h]⟩
  | cons b s ih =>
    apply (owes_cons_iff placed).1
    rw [skipFrom] at h
    cases step : skipStep st stack b with
    | stop =>
      simp only [step, Except.ok.injEq] at h
      rw [← h]
      rfl
    | fail f => simp [step] at h
    | take st' stack' =>
      simp only [step] at h
      split at h
      · next done =>
        obtain ⟨rfl, rfl⟩ := done
        rw [Except.ok.injEq] at h
        rw [← h]
        rfl
      · exact ih (placed_of_skipStep placed step) h

/-- A machine that owes what stands in the text comes to its end there. -/
theorem skipFrom_of_owes {st : SkipState} {stack : List Frame} {s rest : Bytes}
    (placed : Placed st stack) (delimited : Delimited rest) (h : Owes st stack s rest) (n : Nat) :
    ∃ m, skipFrom n st stack s = .ok ⟨m, rest⟩ := by
  induction s generalizing n st stack with
  | nil =>
    obtain ⟨ends, rfl⟩ := (owes_nil_iff placed).mp h
    exact ⟨n, by rw [skipFrom, ends]⟩
  | cons b s ih =>
    have owes := (owes_cons_iff placed).2 delimited h
    rw [skipFrom]
    cases step : skipStep st stack b with
    | stop =>
      rw [step] at owes
      obtain rfl : rest = b :: s := owes
      exact ⟨n, rfl⟩
    | fail f =>
      rw [step] at owes
      exact owes.elim
    | take st' stack' =>
      rw [step] at owes
      by_cases done : st' = .after ∧ stack' = []
      · obtain ⟨rfl, rfl⟩ := done
        obtain rfl : s = rest := owes
        exact ⟨n + 1, by simp⟩
      · simp only [done, if_false]
        exact ih (placed_of_skipStep placed step) owes (n + 1)

/-- What was skipped is white space and a value of the grammar. -/
theorem value_of_skipValue {n : Nat} {s : Bytes} {c : Cursor}
    (h : skipValue ⟨n, s⟩ = .ok ((), c)) : ∃ t a, Blank s a ∧ Grammar.Value t a c.rest := by
  rw [skipValue] at h
  cases run : skipFrom n .value [] s with
  | error e => simp [run, Except.map] at h
  | ok after =>
    simp only [run, Except.map, Except.ok.injEq, Prod.mk.injEq, true_and] at h
    obtain ⟨t, a, b, before, value, rfl⟩ := owes_of_skipFrom (by simp [Placed]) run
    exact ⟨t, a, before, h ▸ value⟩

/-- Every value of the grammar is skipped, with the white space before it. -/
theorem skipValue_of_value {t : Tree} {s a rest : Bytes} (before : Blank s a)
    (value : Grammar.Value t a rest) (delimited : Delimited rest) (n : Nat) :
    ∃ m, skipValue ⟨n, s⟩ = .ok ((), ⟨m, rest⟩) := by
  have owes : Owes .value [] s rest := ⟨t, a, rest, before, value, rfl⟩
  obtain ⟨m, run⟩ := skipFrom_of_owes (by simp [Placed]) delimited owes n
  exact ⟨m, by simp [skipValue, run, Except.map]⟩

end TargetQuery.Json
