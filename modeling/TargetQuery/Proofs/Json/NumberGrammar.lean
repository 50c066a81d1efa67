import TargetQuery.Json.Skip
import TargetQuery.Proofs.Json.Grammar

/-!
# Numbers byte by byte

The rules for numbers, seen from the states of the machine that skips one: what a state still asks
of the text is a relation of its own, and taking a byte off the front leads from one such relation
to the next. A number may end where its state allows it, so a longer number may be read from a text
than was written unless what follows cannot belong to it.
-/

namespace TargetQuery.Json.Grammar

def AnyDigits (s rest : Bytes) : Prop := rest = s ∨ Digits s rest

theorem digits_cons_iff {b : UInt8} {s rest : Bytes} :
    Digits (b :: s) rest ↔ Ascii.isDigit b = true ∧ AnyDigits s rest := by
  constructor
  · intro h
    cases h with
    | last _ hb => exact ⟨hb, .inl rfl⟩
    | cons hb more => exact ⟨hb, .inr more⟩
  · rintro ⟨hb, rfl | more⟩
    · exact .last rest hb
    · exact .cons hb more

theorem not_digits_nil {rest : Bytes} : ¬ Digits [] rest := by
  intro h
  cases h

theorem anyDigits_nil_iff {rest : Bytes} : AnyDigits [] rest ↔ rest = [] := by
  simp [AnyDigits, not_digits_nil]

theorem anyDigits_cons_iff {b : UInt8} {s rest : Bytes} :
    AnyDigits (b :: s) rest ↔
      rest = b :: s ∨ Ascii.isDigit b = true ∧ AnyDigits s rest := by
  rw [AnyDigits, digits_cons_iff]

theorem fraction_cons_iff {b : UInt8} {s rest : Bytes} :
    Fraction (b :: s) rest ↔ rest = b :: s ∨ b = Ascii.dot ∧ Digits s rest := by
  constructor
  · intro h
    cases h with
    | none => exact .inl rfl
    | point h => exact .inr ⟨rfl, h⟩
  · rintro (rfl | ⟨rfl, h⟩)
    · exact .none _
    · exact .point h

theorem fraction_nil_iff {rest : Bytes} : Fraction [] rest ↔ rest = [] := by
  constructor
  · intro h
    cases h
    rfl
  · rintro rfl
    exact .none _

/-- Digits behind the letter of an exponent, with a sign or without. -/
def Power (s rest : Bytes) : Prop :=
  Digits s rest ∨ ∃ sign a, s = sign :: a ∧ (sign = Ascii.plus ∨ sign = Ascii.minus) ∧ Digits a rest

theorem exponent_cons_iff {b : UInt8} {s rest : Bytes} :
    Exponent (b :: s) rest ↔ rest = b :: s ∨ IsExponentLetter b ∧ Power s rest := by
  constructor
  · intro h
    cases h with
    | none => exact .inl rfl
    | plain hb h => exact .inr ⟨hb, .inl h⟩
    | signed hb hs h => exact .inr ⟨hb, .inr ⟨_, _, rfl, hs, h⟩⟩
  · rintro (rfl | ⟨hb, h | ⟨sign, a, rfl, hs, h⟩⟩)
    · exact .none _
    · exact .plain hb h
    · exact .signed hb hs h

theorem exponent_nil_iff {rest : Bytes} : Exponent [] rest ↔ rest = [] := by
  constructor
  · intro h
    cases h
    rfl
  · rintro rfl
    exact .none _

/-! ### What a state asks for -/

/-- What the number still asks of the text. -/
def NumberTail : NumberState → Bytes → Bytes → Prop
  | .minus, s, rest => Unsigned s rest
  | .zero, s, rest => ∃ a, Fraction s a ∧ Exponent a rest
  | .integer, s, rest => ∃ a b, AnyDigits s a ∧ Fraction a b ∧ Exponent b rest
  | .point, s, rest => ∃ a, Digits s a ∧ Exponent a rest
  | .fraction, s, rest => ∃ a, AnyDigits s a ∧ Exponent a rest
  | .exponent, s, rest => Power s rest
  | .exponentSign, s, rest => Digits s rest
  | .exponentDigits, s, rest => AnyDigits s rest

/-- Where a byte leads that belongs to the number. -/
def nextInNumber? (s : NumberState) (b : UInt8) : Option NumberState :=
  match s with
  | .minus => if b = Ascii.zero then some .zero else if Ascii.isDigit b then some .integer else none
  | .zero =>
    if b = Ascii.dot then some .point
    else if IsExponentLetter b then some .exponent
    else none
  | .integer =>
    if Ascii.isDigit b then some .integer
    else if b = Ascii.dot then some .point
    else if IsExponentLetter b then some .exponent
    else none
  | .point => if Ascii.isDigit b then some .fraction else none
  | .fraction =>
    if Ascii.isDigit b then some .fraction
    else if IsExponentLetter b then some .exponent
    else none
  | .exponent =>
    if b = Ascii.plus ∨ b = Ascii.minus then some .exponentSign
    else if Ascii.isDigit b then some .exponentDigits
    else none
  | .exponentSign | .exponentDigits => if Ascii.isDigit b then some .exponentDigits else none

/-- A byte that may stand inside a number, the signs apart. -/
def InNumber (b : UInt8) : Prop := Ascii.isDigit b = true ∨ b = Ascii.dot ∨ IsExponentLetter b

instance : DecidablePred InNumber := fun b =>
  inferInstanceAs (Decidable (Ascii.isDigit b = true ∨ b = Ascii.dot ∨ IsExponentLetter b))

theorem InNumber.ne {b x : UInt8} (h : InNumber b) (other : ¬ InNumber x) : b ≠ x := by
  rintro rfl
  exact other h

theorem InNumber.not_space {b : UInt8} (h : InNumber b) : isSpace b = false := by
  simp only [isSpace, Bool.or_eq_false_iff, beq_eq_false_iff_ne]
  exact ⟨⟨⟨h.ne (by decide), h.ne (by decide)⟩, h.ne (by decide)⟩, h.ne (by decide)⟩

/-- The three kinds of bytes that a number goes on with are different. -/
theorem digit_ne_dot {b : UInt8} (h : Ascii.isDigit b = true) : b ≠ Ascii.dot := by
  rintro rfl
  exact absurd h (by decide)

theorem digit_not_exponentLetter {b : UInt8} (h : Ascii.isDigit b = true) :
    ¬ IsExponentLetter b := by
  rintro (rfl | rfl) <;> exact absurd h (by decide)

theorem dot_not_exponentLetter : ¬ IsExponentLetter Ascii.dot := by
  rintro (h | h) <;> exact absurd h (by decide)

theorem digit_not_sign {b : UInt8} (h : Ascii.isDigit b = true) :
    ¬ (b = Ascii.plus ∨ b = Ascii.minus) := by
  rintro (rfl | rfl) <;> exact absurd h (by decide)

/-- After the digits in front of the point there is nothing, or the point, or an exponent. -/
theorem fraction_exponent_cons_iff {b : UInt8} {s rest : Bytes} :
    (∃ a, Fraction (b :: s) a ∧ Exponent a rest) ↔
      rest = b :: s ∨ b = Ascii.dot ∧ NumberTail .point s rest ∨
        IsExponentLetter b ∧ NumberTail .exponent s rest := by
  constructor
  · rintro ⟨a, hf, he⟩
    rcases fraction_cons_iff.mp hf with rfl | ⟨hb, hd⟩
    · rcases exponent_cons_iff.mp he with h | ⟨hb, hp⟩
      · exact .inl h
      · exact .inr (.inr ⟨hb, hp⟩)
    · exact .inr (.inl ⟨hb, a, hd, he⟩)
  · rintro (rfl | ⟨rfl, a, hd, he⟩ | ⟨hb, hp⟩)
    · exact ⟨_, .none _, .none _⟩
    · exact ⟨a, .point hd, he⟩
    · exact ⟨_, .none _, exponent_cons_iff.mpr (.inr ⟨hb, hp⟩)⟩

theorem unsigned_cons_iff {b : UInt8} {s rest : Bytes} :
    Unsigned (b :: s) rest ↔
      b = Ascii.zero ∧ NumberTail .zero s rest ∨
        b ≠ Ascii.zero ∧ Ascii.isDigit b = true ∧ NumberTail .integer s rest := by
  constructor
  · rintro ⟨hw, hf, he⟩
    cases hw with
    | zero => exact .inl ⟨rfl, _, hf, he⟩
    | digits hb hd =>
      obtain ⟨digit, more⟩ := digits_cons_iff.mp hd
      exact .inr ⟨hb, digit, _, _, more, hf, he⟩
  · rintro (⟨rfl, a, hf, he⟩ | ⟨hb, digit, a, b', more, hf, he⟩)
    · exact ⟨.zero s, hf, he⟩
    · exact ⟨.digits hb (digits_cons_iff.mpr ⟨digit, more⟩), hf, he⟩

theorem not_unsigned_nil {rest : Bytes} : ¬ Unsigned [] rest := by
  rintro ⟨hw, _, _⟩
  cases hw

theorem integerTail_cons_iff {b : UInt8} {s rest : Bytes} :
    NumberTail .integer (b :: s) rest ↔
      (∃ a, Fraction (b :: s) a ∧ Exponent a rest) ∨
        Ascii.isDigit b = true ∧ NumberTail .integer s rest := by
  constructor
  · rintro ⟨a, c, more, hf, he⟩
    rcases anyDigits_cons_iff.mp more with rfl | ⟨digit, more⟩
    · exact .inl ⟨c, hf, he⟩
    · exact .inr ⟨digit, a, c, more, hf, he⟩
  · rintro (⟨c, hf, he⟩ | ⟨digit, a, c, more, hf, he⟩)
    · exact ⟨_, c, .inl rfl, hf, he⟩
    · exact ⟨a, c, anyDigits_cons_iff.mpr (.inr ⟨digit, more⟩), hf, he⟩

theorem fractionTail_cons_iff {b : UInt8} {s rest : Bytes} :
    NumberTail .fraction (b :: s) rest ↔
      Exponent (b :: s) rest ∨ Ascii.isDigit b = true ∧ NumberTail .fraction s rest := by
  constructor
  · rintro ⟨a, more, he⟩
    rcases anyDigits_cons_iff.mp more with rfl | ⟨digit, more⟩
    · exact .inl he
    · exact .inr ⟨digit, a, more, he⟩
  · rintro (he | ⟨digit, a, more, he⟩)
    · exact ⟨_, .inl rfl, he⟩
    · exact ⟨a, anyDigits_cons_iff.mpr (.inr ⟨digit, more⟩), he⟩

theorem power_cons_iff {b : UInt8} {s rest : Bytes} :
    Power (b :: s) rest ↔
      (b = Ascii.plus ∨ b = Ascii.minus) ∧ Digits s rest ∨
        Ascii.isDigit b = true ∧ AnyDigits s rest := by
  constructor
  · rintro (hd | ⟨sign, a, e, hs, hd⟩)
    · exact .inr (digits_cons_iff.mp hd)
    · obtain ⟨rfl, rfl⟩ := List.cons.inj e
      exact .inl ⟨hs, hd⟩
  · rintro (⟨hs, hd⟩ | h)
    · exact .inr ⟨b, s, rfl, hs, hd⟩
    · exact .inl (digits_cons_iff.mpr h)

/-- Taking a byte off the front of what a state asks for. -/
theorem numberTail_cons_iff {st : NumberState} {b : UInt8} {s rest : Bytes} :
    NumberTail st (b :: s) rest ↔
      st.mayEnd = true ∧ rest = b :: s ∨
        ∃ next, nextInNumber? st b = some next ∧ NumberTail next s rest := by
  cases st with
  | minus =>
    rw [NumberTail, unsigned_cons_iff]
    by_cases zero : b = Ascii.zero
    · simp [nextInNumber?, NumberState.mayEnd, zero]
    · by_cases digit : Ascii.isDigit b = true <;>
        simp [nextInNumber?, NumberState.mayEnd, zero, digit]
  | zero =>
    rw [NumberTail, fraction_exponent_cons_iff]
    by_cases dot : b = Ascii.dot
    · simp [nextInNumber?, NumberState.mayEnd, dot, dot_not_exponentLetter]
    · by_cases letter : IsExponentLetter b <;>
        simp [nextInNumber?, NumberState.mayEnd, dot, letter]
  | integer =>
    rw [integerTail_cons_iff, fraction_exponent_cons_iff]
    by_cases digit : Ascii.isDigit b = true
    · simp [nextInNumber?, NumberState.mayEnd, digit, digit_ne_dot, digit_not_exponentLetter]
    by_cases dot : b = Ascii.dot
    · rw [dot] at digit
      simp [nextInNumber?, NumberState.mayEnd, dot, digit, dot_not_exponentLetter]
    · by_cases letter : IsExponentLetter b <;>
        simp [nextInNumber?, NumberState.mayEnd, digit, dot, letter]
  | point =>
    rw [NumberTail]
    by_cases digit : Ascii.isDigit b = true <;>
      simp [nextInNumber?, NumberState.mayEnd, digit, digits_cons_iff, NumberTail]
  | fraction =>
    rw [fractionTail_cons_iff, exponent_cons_iff]
    by_cases digit : Ascii.isDigit b = true
    · simp [nextInNumber?, NumberState.mayEnd, digit, digit_not_exponentLetter]
    · by_cases letter : IsExponentLetter b <;>
        simp [nextInNumber?, NumberState.mayEnd, digit, letter, NumberTail]
  | exponent =>
    rw [NumberTail, power_cons_iff]
    by_cases digit : Ascii.isDigit b = true
    · simp [nextInNumber?, NumberState.mayEnd, digit, digit_not_sign digit, NumberTail]
    · by_cases sign : b = Ascii.plus ∨ b = Ascii.minus <;>
        simp [nextInNumber?, NumberState.mayEnd, digit, sign, NumberTail]
  | exponentSign =>
    rw [NumberTail, digits_cons_iff]
    by_cases digit : Ascii.isDigit b = true <;>
      simp [nextInNumber?, NumberState.mayEnd, digit, NumberTail]
  | exponentDigits =>
    rw [NumberTail, anyDigits_cons_iff]
    by_cases digit : Ascii.isDigit b = true <;>
      simp [nextInNumber?, NumberState.mayEnd, digit, NumberTail]

theorem numberTail_nil_iff {st : NumberState} {rest : Bytes} :
    NumberTail st [] rest ↔ st.mayEnd = true ∧ rest = [] := by
  cases st <;>
    simp [NumberTail, NumberState.mayEnd, not_unsigned_nil, not_digits_nil, anyDigits_nil_iff,
      fraction_nil_iff, exponent_nil_iff, Power]

/-- A text that does not go on with a byte of a number. -/
def Delimited (s : Bytes) : Prop := ∀ b ∈ s.head?, ¬ InNumber b

/-- In front of such a text a number must end where it may. -/
theorem nextInNumber?_eq_none {st : NumberState} {b : UInt8} (ends : st.mayEnd = true)
    (h : ¬ InNumber b) : nextInNumber? st b = none := by
  simp only [InNumber, not_or] at h
  cases st <;> simp_all [nextInNumber?, NumberState.mayEnd]

/-! ### Tokens -/

/-- A rule that does not look at what it leaves. -/
def Framed (rule : Bytes → Bytes → Prop) : Prop :=
  ∀ s rest, rule s rest → ∃ token, s = token ++ rest ∧ ∀ more, rule (token ++ more) more

theorem Framed.digits : Framed Digits := by
  intro s rest h
  induction h with
  | @last b rest hb => exact ⟨[b], rfl, fun more => .last more hb⟩
  | @cons b s rest hb _ ih =>
    obtain ⟨token, rfl, frame⟩ := ih
    exact ⟨b :: token, rfl, fun more => .cons hb (frame more)⟩

theorem Framed.whole : Framed Whole := by
  rintro s rest h
  cases h with
  | zero => exact ⟨[Ascii.zero], rfl, .zero⟩
  | @digits b s _ hb hd =>
    obtain ⟨token, e, frame⟩ := Framed.digits _ _ hd
    cases token with
    | nil =>
      have := frame []
      exact absurd this not_digits_nil
    | cons b' token =>
      obtain ⟨rfl, rfl⟩ := List.cons.inj e
      exact ⟨b :: token, rfl, fun more => .digits hb (frame more)⟩

theorem Framed.fraction : Framed Fraction := by
  rintro s rest h
  cases h with
  | none => exact ⟨[], rfl, .none⟩
  | point hd =>
    obtain ⟨token, rfl, frame⟩ := Framed.digits _ _ hd
    exact ⟨Ascii.dot :: token, rfl, fun more => .point (frame more)⟩

theorem Framed.exponent : Framed Exponent := by
  rintro s rest h
  cases h with
  | none => exact ⟨[], rfl, .none⟩
  | @plain e _ _ he hd =>
    obtain ⟨token, rfl, frame⟩ := Framed.digits _ _ hd
    exact ⟨e :: token, rfl, fun more => .plain he (frame more)⟩
  | @signed e sign _ _ he hs hd =>
    obtain ⟨token, rfl, frame⟩ := Framed.digits _ _ hd
    exact ⟨e :: sign :: token, rfl, fun more => .signed he hs (frame more)⟩

theorem Framed.unsigned : Framed Unsigned := by
  rintro s rest ⟨hw, hf, he⟩
  obtain ⟨w, rfl, frameW⟩ := Framed.whole _ _ hw
  obtain ⟨f, rfl, frameF⟩ := Framed.fraction _ _ hf
  obtain ⟨e, rfl, frameE⟩ := Framed.exponent _ _ he
  refine ⟨w ++ (f ++ e), by simp only [List.append_assoc], fun more => ?_⟩
  simp only [List.append_assoc]
  exact ⟨frameW _, frameF _, frameE _⟩

theorem Framed.number : Framed Number := by
  rintro s rest h
  cases h with
  | positive h =>
    obtain ⟨token, rfl, frame⟩ := Framed.unsigned _ _ h
    exact ⟨token, rfl, fun more => .positive (frame more)⟩
  | negative h =>
    obtain ⟨token, rfl, frame⟩ := Framed.unsigned _ _ h
    exact ⟨Ascii.minus :: token, rfl, fun more => .negative (frame more)⟩

theorem Number.append {token : Bytes} (h : Number token []) (more : Bytes) :
    Number (token ++ more) more := by
  obtain ⟨token', e, frame⟩ := Framed.number _ _ h
  rw [List.append_nil] at e
  exact e ▸ frame more

end TargetQuery.Json.Grammar
