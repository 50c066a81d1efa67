import TargetQuery.Json.Number
import TargetQuery.Proofs.Json.NumberGrammar

/-!
# Number tokens that are read

Reading takes all of a number of the grammar, whatever delimiter follows, and the outcome depends on
the number only: it has a value, or it is out of range.
-/

namespace TargetQuery.Json

open Grammar

/-- The reader takes the text up to the given rest, for the given value or for one out of range. -/
def Gives (r : Reader Number) (s rest : Bytes) (value : Option Number) : Prop :=
  ∀ n, ∃ m, r ⟨n, s⟩ =
    match value with
    | some x => .ok (x, ⟨m, rest⟩)
    | none => .error ⟨.fault .numberRange, m⟩

/-- The outcome depends on the token only. -/
def Settled (r : Reader Number) (token : Bytes) : Prop :=
  ∃ value, ∀ rest, Delimited rest → Gives r (token ++ rest) rest value

/-- The head of a text, if there is one, is no digit. -/
def NoDigit (s : Bytes) : Prop := ∀ b ∈ s.head?, Ascii.isDigit b = false

theorem Grammar.Delimited.noDigit {s : Bytes} (h : Delimited s) : NoDigit s := by
  intro b hb
  simpa using fun digit => h b hb (.inl digit)

theorem takeDigits_noDigit {s : Bytes} (h : NoDigit s) (n : Nat) :
    takeDigits n s = ([], ⟨n, s⟩) := by
  cases s with
  | nil => rfl
  | cons b s => simp [takeDigits, h b rfl]

theorem takeDigits_append {digits rest : Bytes} (all : ∀ b ∈ digits, Ascii.isDigit b = true)
    (stop : NoDigit rest) (n : Nat) :
    takeDigits n (digits ++ rest)
      = (digits.map Ascii.digitValue, ⟨n + digits.length, rest⟩) := by
  induction digits generalizing n with
  | nil => exact takeDigits_noDigit stop n
  | cons b digits ih =>
    rw [List.forall_mem_cons] at all
    rw [List.cons_append, takeDigits, if_pos all.1, ih all.2]
    simp [Nat.add_assoc, Nat.add_comm 1]

/-- The digits in front of something else. -/
theorem exists_digits (s : Bytes) :
    ∃ digits rest, s = digits ++ rest ∧ (∀ b ∈ digits, Ascii.isDigit b = true) ∧ NoDigit rest := by
  refine ⟨s.takeWhile Ascii.isDigit, s.dropWhile Ascii.isDigit,
    List.takeWhile_append_dropWhile.symm, List.all_eq_true.mp List.all_takeWhile,
    fun b first => ?_⟩
  have stop := List.head?_dropWhile_not Ascii.isDigit s
  rw [Option.mem_def.mp first] at stop
  simpa using stop

theorem noDigit_of_head {s t : Bytes} (stop : NoDigit s) {b : UInt8} (first : s.head? = some b)
    (same : t.head? = some b) : NoDigit t := by
  intro x hx
  rw [same] at hx
  exact stop x (first.trans hx)

/-- A run of digits of the grammar, as a list. -/
theorem Grammar.Digits.exists_eq {s rest : Bytes} (h : Digits s rest) :
    ∃ digits, digits ≠ [] ∧ (∀ b ∈ digits, Ascii.isDigit b = true) ∧ s = digits ++ rest := by
  induction h with
  | @last b rest hb => exact ⟨[b], by simp, by simpa using hb, rfl⟩
  | @cons b s rest hb _ ih =>
    obtain ⟨digits, _, all, rfl⟩ := ih
    exact ⟨b :: digits, by simp, List.forall_mem_cons.mpr ⟨hb, all⟩, rfl⟩

/-- The value of a number that is not exact, unless it is out of range. -/
def floatValue? (positive : Bool) (significand : Nat) (exponent : Int) : Option Number :=
  (scaled? significand exponent).map fun f => .float (if positive then f else -f)

theorem gives_floatToken (positive : Bool) (significand : Nat) (exponent : Int) (rest : Bytes) :
    Gives (floatToken positive significand exponent) rest rest
      (floatValue? positive significand exponent) := by
  intro n
  refine ⟨n, ?_⟩
  cases h : scaled? significand exponent <;> simp [floatToken, floatValue?, h]

theorem head_of_digits {digits : Bytes} (nonempty : digits ≠ [])
    (all : ∀ b ∈ digits, Ascii.isDigit b = true) :
    ∃ b more, digits = b :: more ∧ Ascii.isDigit b = true := by
  cases digits with
  | nil => exact absurd rfl nonempty
  | cons b more => exact ⟨b, more, rfl, all b List.mem_cons_self⟩

theorem exponentDigits_append {digits rest : Bytes} (nonempty : digits ≠ [])
    (all : ∀ b ∈ digits, Ascii.isDigit b = true) (stop : NoDigit rest) (positive : Bool)
    (significand : Nat) (start : Int) (up : Bool) (n : Nat) {e : Nat} {left : List Nat}
    (value : appendDigits exponentBound 0 (digits.map Ascii.digitValue) = (e, left)) :
    exponentDigits positive significand start up ⟨n, digits ++ rest⟩ =
      if left.isEmpty then
        floatToken positive significand (if up then start + e else start - e)
          ⟨n + digits.length, rest⟩
      else if significand != 0 && up then
        .error ⟨.fault .numberRange, n + (digits.length - left.length) + 1⟩
      else .ok (.float (if positive then 0.0 else -0.0), ⟨n + digits.length, rest⟩) := by
  have taken := takeDigits_append all stop n
  obtain ⟨b, more, rfl, digit⟩ := head_of_digits nonempty all
  rw [List.cons_append] at taken
  simp only [exponentDigits, List.cons_append, digit, taken, value, List.length_map]
  rfl

/-- The digits of an exponent are read to their end, and decide what becomes of the number. -/
theorem settled_exponentDigits {digits : Bytes} (nonempty : digits ≠ [])
    (all : ∀ b ∈ digits, Ascii.isDigit b = true) (positive : Bool) (significand : Nat)
    (start : Int) (up : Bool) :
    Settled (exponentDigits positive significand start up) digits := by
  obtain ⟨e, left, value⟩ :
      ∃ e left, appendDigits exponentBound 0 (digits.map Ascii.digitValue) = (e, left) :=
    ⟨_, _, rfl⟩
  have step := fun rest (delimited : Delimited rest) n => exponentDigits_append nonempty all
    delimited.noDigit positive significand start up n value
  by_cases fits : left.isEmpty = true
  · refine ⟨floatValue? positive significand (if up then start + e else start - e),
      fun rest delimited n => ?_⟩
    rw [step rest delimited n, if_pos fits]
    exact gives_floatToken positive significand _ rest _
  by_cases beyond : (significand != 0 && up) = true
  · refine ⟨none, fun rest delimited n => ⟨n + (digits.length - left.length) + 1, ?_⟩⟩
    rw [step rest delimited n, if_neg fits, if_pos beyond]
  · refine ⟨some (.float (if positive then 0.0 else -0.0)),
      fun rest delimited n => ⟨n + digits.length, ?_⟩⟩
    rw [step rest delimited n, if_neg fits, if_neg beyond]

theorem exponentPart_sign {sign : UInt8} (h : sign = Ascii.plus ∨ sign = Ascii.minus)
    (positive : Bool) (significand : Nat) (start : Int) (n : Nat) (s : Bytes) :
    exponentPart positive significand start ⟨n, sign :: s⟩
      = exponentDigits positive significand start (some sign != some Ascii.minus) ⟨n + 1, s⟩ := by
  rcases h with rfl | rfl <;> rfl

theorem exponentPart_digits {s : Bytes}
    (unsigned : ∀ b ∈ s.head?, ¬ (b = Ascii.plus ∨ b = Ascii.minus)) (positive : Bool)
    (significand : Nat) (start : Int) (n : Nat) :
    exponentPart positive significand start ⟨n, s⟩
      = exponentDigits positive significand start true ⟨n, s⟩ := by
  cases s with
  | nil => rfl
  | cons b s =>
    have notSign := unsigned b rfl
    rw [not_or] at notSign
    have up : (some b != some Ascii.minus) = true := by simp [notSign.2]
    simp [exponentPart, bind, StateT.bind, Reader.peek, Except.bind, notSign, up]

theorem settled_exponentPart {token : Bytes} (h : Power token []) (positive : Bool)
    (significand : Nat) (start : Int) :
    Settled (exponentPart positive significand start) token := by
  rcases h with h | ⟨sign, a, rfl, hs, h⟩
  · obtain ⟨digits, nonempty, all, rfl⟩ := h.exists_eq
    rw [List.append_nil]
    obtain ⟨value, settled⟩ :=
      settled_exponentDigits nonempty all positive significand start true
    refine ⟨value, fun rest delimited n => ?_⟩
    obtain ⟨b, more, rfl, digit⟩ := head_of_digits nonempty all
    have unsigned : ∀ x ∈ (b :: more ++ rest).head?, ¬ (x = Ascii.plus ∨ x = Ascii.minus) := by
      intro x hx
      obtain rfl : b = x := by simpa using hx
      exact digit_not_sign digit
    rw [exponentPart_digits unsigned]
    exact settled rest delimited n
  · obtain ⟨digits, nonempty, all, rfl⟩ := h.exists_eq
    rw [List.append_nil]
    obtain ⟨value, settled⟩ :=
      settled_exponentDigits nonempty all positive significand start (some sign != some Ascii.minus)
    refine ⟨value, fun rest delimited n => ?_⟩
    rw [List.cons_append, exponentPart_sign hs]
    exact settled rest delimited (n + 1)

/-- The head of a text, if there is one, does not announce an exponent. -/
def NoLetter (s : Bytes) : Prop := ∀ b ∈ s.head?, ¬ IsExponentLetter b

theorem NoLetter.beq {s : Bytes} (h : NoLetter s) :
    (s.head? == some letterE || s.head? == some capitalE) = false := by
  cases s with
  | nil => rfl
  | cons b s =>
    have outside := h b rfl
    rw [IsExponentLetter, not_or] at outside
    simp [outside]

theorem Grammar.Delimited.noLetter {s : Bytes} (h : Delimited s) : NoLetter s :=
  fun b hb letter => h b hb (.inr (.inr letter))

theorem exponentOrEnd_letter {e : UInt8} (h : IsExponentLetter e) (positive : Bool)
    (significand : Nat) (exponent : Int) (n : Nat) (s : Bytes) :
    exponentOrEnd positive significand exponent ⟨n, e :: s⟩
      = exponentPart positive significand exponent ⟨n + 1, s⟩ := by
  rcases h with rfl | rfl <;> rfl

theorem exponentOrEnd_end {rest : Bytes} (h : NoLetter rest) (positive : Bool)
    (significand : Nat) (exponent : Int) (n : Nat) :
    exponentOrEnd positive significand exponent ⟨n, rest⟩
      = floatToken positive significand exponent ⟨n, rest⟩ := by
  simp only [exponentOrEnd, bind, StateT.bind, Reader.peek, Except.bind, h.beq]
  rfl

theorem settled_exponentOrEnd {token : Bytes} (h : Exponent token []) (positive : Bool)
    (significand : Nat) (exponent : Int) :
    Settled (exponentOrEnd positive significand exponent) token := by
  cases token with
  | nil =>
    refine ⟨floatValue? positive significand exponent, fun rest delimited n => ?_⟩
    rw [List.nil_append, exponentOrEnd_end delimited.noLetter]
    exact gives_floatToken positive significand exponent rest n
  | cons e power =>
    rcases exponent_cons_iff.mp h with h | ⟨letter, h⟩
    · cases h
    · obtain ⟨value, settled⟩ := settled_exponentPart h positive significand exponent
      refine ⟨value, fun rest delimited n => ?_⟩
      rw [List.cons_append, exponentOrEnd_letter letter]
      exact settled rest delimited (n + 1)

/-- An exponent, or nothing, does not go on with digits. -/
theorem noDigit_of_exponent {token rest : Bytes} (h : Exponent token [])
    (delimited : Delimited rest) : NoDigit (token ++ rest) := by
  cases token with
  | nil => exact delimited.noDigit
  | cons e power =>
    rcases exponent_cons_iff.mp h with h | ⟨letter, _⟩
    · cases h
    · intro b hb
      obtain rfl : e = b := by simpa using hb
      rcases letter with rfl | rfl <;> decide

theorem fractionPart_append {digits rest : Bytes} (nonempty : digits ≠ [])
    (all : ∀ b ∈ digits, Ascii.isDigit b = true) (stop : NoDigit rest) (positive : Bool)
    (significand : Nat) (exponent : Int) (n : Nat) :
    fractionPart positive significand exponent ⟨n, digits ++ rest⟩ =
      (let (m, left) := appendDigits significandBound significand (digits.map Ascii.digitValue)
       exponentOrEnd positive m (exponent - (digits.length - left.length : Nat)))
        ⟨n + digits.length, rest⟩ := by
  have taken := takeDigits_append all stop n
  obtain ⟨b, more, rfl, digit⟩ := head_of_digits nonempty all
  simp only [fractionPart, taken, List.map_cons, List.isEmpty_cons, Bool.false_eq_true, if_false,
    List.length_cons, List.length_map]

theorem settled_fractionPart {digits token : Bytes} (nonempty : digits ≠ [])
    (all : ∀ b ∈ digits, Ascii.isDigit b = true) (h : Exponent token []) (positive : Bool)
    (significand : Nat) (exponent : Int) :
    Settled (fractionPart positive significand exponent) (digits ++ token) := by
  obtain ⟨more, left, appended⟩ : ∃ more left, appendDigits significandBound significand
      (digits.map Ascii.digitValue) = (more, left) := ⟨_, _, rfl⟩
  obtain ⟨value, settled⟩ := settled_exponentOrEnd h positive more
    (exponent - (digits.length - left.length : Nat))
  refine ⟨value, fun rest delimited n => ?_⟩
  obtain ⟨m, h'⟩ := settled rest delimited (n + digits.length)
  refine ⟨m, ?_⟩
  rw [List.append_assoc, fractionPart_append nonempty all (noDigit_of_exponent h delimited),
    appended]
  exact h'

/-- The value of an integer of 64 bits with a sign. -/
def exactNumber (positive : Bool) (significand : Nat) : Number :=
  if positive then .natural significand
  else if significand == 0 || 9223372036854775808 < significand then
    .float (-(Float.ofScientific significand false 0))
  else .negative significand

theorem afterInteger_letter {e : UInt8} (h : IsExponentLetter e) (positive : Bool)
    (significand dropped n : Nat) (s : Bytes) :
    afterInteger positive significand dropped ⟨n, e :: s⟩
      = exponentPart positive significand dropped ⟨n + 1, s⟩ := by
  rcases h with rfl | rfl <;> rfl

/-- Digits that were dropped make the number inexact. -/
theorem afterInteger_end {rest : Bytes} (noDot : ∀ b ∈ rest.head?, b ≠ Ascii.dot)
    (noLetter : NoLetter rest) (positive : Bool) (significand dropped n : Nat) :
    afterInteger positive significand dropped ⟨n, rest⟩ =
      if dropped != 0 then floatToken positive significand dropped ⟨n, rest⟩
      else .ok (exactNumber positive significand, ⟨n, rest⟩) := by
  have notDot : (rest.head? == some Ascii.dot) = false := by
    rw [beq_eq_false_iff_ne]
    exact fun dot => noDot _ dot rfl
  simp only [afterInteger, bind, StateT.bind, Reader.peek, Except.bind, notDot,
    noLetter.beq, exactNumber, Bool.false_eq_true, if_false]
  by_cases hd : (dropped != 0) = true
  · rw [if_pos hd, if_pos hd]
  · rw [if_neg hd, if_neg hd]
    repeat' split
    all_goals rfl

/-- Behind the integer part stand a fraction and an exponent, or nothing. -/
theorem settled_afterInteger {s token : Bytes} (hf : Fraction s token) (he : Exponent token [])
    (positive : Bool) (significand dropped : Nat) :
    Settled (afterInteger positive significand dropped) s := by
  cases hf with
  | point hd =>
    obtain ⟨digits, nonempty, all, rfl⟩ := hd.exists_eq
    obtain ⟨value, settled⟩ := settled_fractionPart nonempty all he positive significand dropped
    exact ⟨value, fun rest delimited n => settled rest delimited (n + 1)⟩
  | none =>
    cases s with
    | cons e power =>
      rcases exponent_cons_iff.mp he with h | ⟨letter, h⟩
      · cases h
      · obtain ⟨value, settled⟩ := settled_exponentPart h positive significand dropped
        refine ⟨value, fun rest delimited n => ?_⟩
        rw [List.cons_append, afterInteger_letter letter]
        exact settled rest delimited (n + 1)
    | nil =>
      have noDot : ∀ {rest}, Delimited rest → ∀ b ∈ rest.head?, b ≠ Ascii.dot :=
        fun delimited b hb dot => delimited b hb (.inr (.inl dot))
      by_cases fits : dropped = 0
      · refine ⟨some (exactNumber positive significand), fun rest delimited n => ⟨n, ?_⟩⟩
        rw [List.nil_append, afterInteger_end (noDot delimited) delimited.noLetter]
        simp [fits]
      · refine ⟨floatValue? positive significand dropped, fun rest delimited n => ?_⟩
        rw [List.nil_append, afterInteger_end (noDot delimited) delimited.noLetter,
          if_pos (by simpa using fits)]
        exact gives_floatToken positive significand dropped rest n

/-- A fraction and an exponent do not go on with digits either. -/
theorem noDigit_of_fraction {s a rest : Bytes} (hf : Fraction s a) (he : Exponent a [])
    (delimited : Delimited rest) : NoDigit (s ++ rest) := by
  cases hf with
  | none => exact noDigit_of_exponent he delimited
  | point =>
    intro b hb
    obtain rfl : Ascii.dot = b := by simpa using hb
    decide

theorem numberToken_zero {rest : Bytes} (stop : NoDigit rest) (positive : Bool) (n : Nat) :
    numberToken positive ⟨n, Ascii.zero :: rest⟩ = afterInteger positive 0 0 ⟨n + 1, rest⟩ := by
  cases rest with
  | nil => rfl
  | cons b rest => simp [numberToken, stop b rfl]

theorem numberToken_append {d : UInt8} {more rest : Bytes} (nonzero : d ≠ Ascii.zero)
    (all : ∀ b ∈ d :: more, Ascii.isDigit b = true) (stop : NoDigit rest) (positive : Bool)
    (n : Nat) {significand : Nat} {left : List Nat}
    (value : appendDigits significandBound 0 ((d :: more).map Ascii.digitValue)
      = (significand, left)) :
    numberToken positive ⟨n, d :: more ++ rest⟩
      = afterInteger positive significand left.length ⟨n + (d :: more).length, rest⟩ := by
  have taken := takeDigits_append all stop n
  have digit := all d List.mem_cons_self
  rw [List.cons_append] at taken ⊢
  simp only [numberToken, beq_eq_false_iff_ne.mpr nonzero, digit, taken, value, if_true,
    Bool.false_eq_true, if_false]

/-- The token of a number decides what is read, whatever stands behind it. -/
theorem settled_numberToken {token : Bytes} (h : Unsigned token []) (positive : Bool) :
    Settled (numberToken positive) token := by
  obtain ⟨a, whole, b, hf, he⟩ : ∃ a, Whole token a ∧ ∃ b, Fraction a b ∧ Exponent b [] := by
    obtain ⟨whole, hf, he⟩ := h
    exact ⟨_, whole, _, hf, he⟩
  cases whole with
  | zero =>
    obtain ⟨value, settled⟩ := settled_afterInteger hf he positive 0 0
    refine ⟨value, fun rest delimited n => ?_⟩
    rw [List.cons_append, numberToken_zero (noDigit_of_fraction hf he delimited)]
    exact settled rest delimited (n + 1)
  | @digits d _ _ nonzero hd =>
    obtain ⟨digits, nonempty, all, e⟩ := hd.exists_eq
    obtain ⟨_, more, rfl, -⟩ := head_of_digits nonempty all
    obtain ⟨rfl, rfl⟩ := List.cons.inj e
    obtain ⟨significand, left, appended⟩ : ∃ significand left,
        appendDigits significandBound 0 ((d :: more).map Ascii.digitValue) = (significand, left) :=
      ⟨_, _, rfl⟩
    obtain ⟨value, settled⟩ := settled_afterInteger hf he positive significand left.length
    refine ⟨value, fun rest delimited n => ?_⟩
    rw [e, List.append_assoc, numberToken_append nonzero all
      (noDigit_of_fraction hf he delimited) positive n appended]
    exact settled rest delimited _

/-- The value of a number token, unless it is out of range. -/
def tokenValue? : Bytes → Option Number
  | Ascii.minus :: s => (numberToken false ⟨0, s⟩).toOption.map (·.1)
  | s => (numberToken true ⟨0, s⟩).toOption.map (·.1)

/-- A number without a sign that has a value when it stands alone has it in front of any
delimiter. -/
theorem Settled.reads {positive : Bool} {token : Bytes}
    (settled : Settled (numberToken positive) token) {x : Number}
    (value : (numberToken positive ⟨0, token⟩).toOption.map (·.1) = some x) {rest : Bytes}
    (delimited : Delimited rest) (n : Nat) :
    ∃ m, numberToken positive ⟨n, token ++ rest⟩ = .ok (x, ⟨m, rest⟩) := by
  obtain ⟨outcome, gives⟩ := settled
  have alone := gives [] (by simp [Delimited]) 0
  rw [List.append_nil] at alone
  obtain ⟨m, alone⟩ := alone
  rw [alone] at value
  cases outcome with
  | none => cases value
  | some y =>
    obtain rfl : y = x := by simpa [Except.toOption] using value
    exact gives rest delimited n

end TargetQuery.Json
