import TargetQuery.Proofs.Json.ContentGrammar
import TargetQuery.Proofs.Json.ScalarReading

/-!
# What a number was read from

A number that was read is one of the grammar, and its token alone is read as the same number. So
the value of a number is that of its token, wherever the token stands.
-/

namespace TargetQuery.Json

open Grammar Reader

/-- What is taken is a token of the rule, and alone it gives the same. -/
def Sourced (r : Reader Number) (rule : Bytes → Bytes → Prop) : Prop :=
  ∀ n s x c, r ⟨n, s⟩ = .ok (x, c) →
    ∃ token, s = token ++ c.rest ∧ rule token [] ∧ ∀ k, ∃ m, r ⟨k, token⟩ = .ok (x, ⟨m, []⟩)

theorem noDigit_nil : NoDigit [] := by
  simp [NoDigit]

theorem digits_append {digits : Bytes} (nonempty : digits ≠ [])
    (all : ∀ b ∈ digits, Ascii.isDigit b = true) (rest : Bytes) : Digits (digits ++ rest) rest := by
  induction digits with
  | nil => exact absurd rfl nonempty
  | cons b digits ih =>
    rw [List.forall_mem_cons] at all
    cases digits with
    | nil => exact .last rest all.1
    | cons d digits => exact .cons all.1 (ih (List.cons_ne_nil _ _) all.2)

variable (positive : Bool) (significand : Nat)

theorem floatToken_eq_ok {positive : Bool} {significand : Nat} {exponent : Int} {x : Number}
    {c c' : Cursor} (h : floatToken positive significand exponent c = .ok (x, c')) :
    c' = c ∧ ∀ d, floatToken positive significand exponent d = .ok (x, d) := by
  unfold floatToken at h ⊢
  cases value : scaled? significand exponent with
  | none =>
    rw [value] at h
    cases h
  | some f =>
    rw [value] at h
    cases h
    exact ⟨rfl, fun d => rfl⟩

theorem sourced_exponentDigits (start : Int) (up : Bool) :
    Sourced (exponentDigits positive significand start up) Digits := by
  intro n s x c h
  obtain ⟨digits, rest, rfl, all, stop⟩ := exists_digits s
  by_cases empty : digits = []
  · subst empty
    cases rest with
    | nil => cases h
    | cons b rest => simp [exponentDigits, stop b rfl] at h
  obtain ⟨e, left, value⟩ : ∃ e left,
      appendDigits exponentBound 0 (digits.map Ascii.digitValue) = (e, left) := ⟨_, _, rfl⟩
  have isDigits := digits_append empty all []
  have alone := fun k =>
    exponentDigits_append empty all noDigit_nil positive significand start up k value
  rw [List.append_nil] at isDigits alone
  rw [exponentDigits_append empty all stop positive significand start up n value] at h
  split at h
  · next fits =>
    obtain ⟨rfl, same⟩ := floatToken_eq_ok h
    exact ⟨digits, rfl, isDigits, fun k => ⟨_, by rw [alone, if_pos fits, same]⟩⟩
  split at h
  · cases h
  · next beyond zero =>
    cases h
    exact ⟨digits, rfl, isDigits, fun k => ⟨_, by rw [alone, if_neg beyond, if_neg zero]⟩⟩

theorem sourced_exponentPart (start : Int) :
    Sourced (exponentPart positive significand start) Power := by
  intro n s x c h
  by_cases signed : ∃ sign a, s = sign :: a ∧ (sign = Ascii.plus ∨ sign = Ascii.minus)
  · obtain ⟨sign, a, rfl, isSign⟩ := signed
    rw [exponentPart_sign isSign] at h
    obtain ⟨token, rfl, isDigits, alone⟩ := sourced_exponentDigits _ _ _ _ _ _ _ _ h
    refine ⟨sign :: token, rfl, .inr ⟨sign, token, rfl, isSign, isDigits⟩, fun k => ?_⟩
    rw [exponentPart_sign isSign]
    exact alone (k + 1)
  · have noSign : ∀ a b, s = a ++ b → ∀ x ∈ a.head?, ¬ (x = Ascii.plus ∨ x = Ascii.minus) := by
      rintro (_ | ⟨y, a⟩) b rfl x hx isSign
      · cases hx
      · obtain rfl : y = x := by simpa using hx
        exact signed ⟨y, a ++ b, rfl, isSign⟩
    rw [exponentPart_digits (noSign s [] (List.append_nil s).symm)] at h
    obtain ⟨token, same, isDigits, alone⟩ := sourced_exponentDigits _ _ _ _ _ _ _ _ h
    refine ⟨token, same, .inl isDigits, fun k => ?_⟩
    rw [exponentPart_digits (noSign _ _ same)]
    exact alone k

theorem sourced_exponentOrEnd (exponent : Int) :
    Sourced (exponentOrEnd positive significand exponent) Exponent := by
  intro n s x c h
  by_cases letter : ∃ e a, s = e :: a ∧ IsExponentLetter e
  · obtain ⟨e, a, rfl, isLetter⟩ := letter
    rw [exponentOrEnd_letter isLetter] at h
    obtain ⟨token, rfl, power, alone⟩ := sourced_exponentPart _ _ _ _ _ _ _ h
    refine ⟨e :: token, rfl, exponent_cons_iff.mpr (.inr ⟨isLetter, power⟩), fun k => ?_⟩
    rw [exponentOrEnd_letter isLetter]
    exact alone (k + 1)
  · have other : NoLetter s := by
      intro b hb isLetter
      obtain ⟨a, rfl⟩ := List.head?_eq_some_iff.mp hb
      exact letter ⟨b, a, rfl, isLetter⟩
    rw [exponentOrEnd_end other] at h
    obtain ⟨rfl, same⟩ := floatToken_eq_ok h
    refine ⟨[], rfl, .none [], fun k => ⟨k, ?_⟩⟩
    rw [exponentOrEnd_end (by simp [NoLetter])]
    exact same _

theorem noDigit_of_exponent_nil {token : Bytes} (h : Exponent token []) : NoDigit token := by
  have stop := noDigit_of_exponent h delimited_nil
  rwa [List.append_nil] at stop

theorem sourced_fractionPart (exponent : Int) :
    Sourced (fractionPart positive significand exponent) (NumberTail .point) := by
  intro n s x c h
  obtain ⟨digits, rest, rfl, all, stop⟩ := exists_digits s
  by_cases empty : digits = []
  · subst empty
    rw [List.nil_append] at h
    have taken := takeDigits_noDigit stop n
    cases rest with
    | nil => cases h
    | cons b rest => simp [fractionPart, taken] at h
  rw [fractionPart_append empty all stop] at h
  obtain ⟨token, rfl, isExponent, alone⟩ := sourced_exponentOrEnd _ _ _ _ _ _ _ h
  refine ⟨digits ++ token, (List.append_assoc _ _ _).symm,
    ⟨token, digits_append empty all token, isExponent⟩, fun k => ?_⟩
  rw [fractionPart_append empty all (noDigit_of_exponent_nil isExponent)]
  exact alone _

/-- Behind the integer part: the byte that comes next decides what follows. -/
theorem sourced_afterInteger (dropped : Nat) :
    Sourced (afterInteger positive significand dropped) (NumberTail .zero) := by
  intro n s x c h
  by_cases point : ∃ a, s = Ascii.dot :: a
  · obtain ⟨a, rfl⟩ := point
    have h : fractionPart positive significand dropped ⟨n + 1, a⟩ = .ok (x, c) := h
    obtain ⟨token, rfl, ⟨b, isDigits, isExponent⟩, alone⟩ := sourced_fractionPart _ _ _ _ _ _ _ h
    exact ⟨Ascii.dot :: token, rfl, ⟨b, .point isDigits, isExponent⟩, fun k => alone (k + 1)⟩
  by_cases letter : ∃ e a, s = e :: a ∧ IsExponentLetter e
  · obtain ⟨e, a, rfl, isLetter⟩ := letter
    rw [afterInteger_letter isLetter] at h
    obtain ⟨token, rfl, power, alone⟩ := sourced_exponentPart _ _ _ _ _ _ _ h
    refine ⟨e :: token, rfl, ⟨_, .none _, exponent_cons_iff.mpr (.inr ⟨isLetter, power⟩)⟩,
      fun k => ?_⟩
    rw [afterInteger_letter isLetter]
    exact alone (k + 1)
  have noDot : ∀ b ∈ s.head?, b ≠ Ascii.dot := by
    rintro b hb rfl
    obtain ⟨a, rfl⟩ := List.head?_eq_some_iff.mp hb
    exact point ⟨a, rfl⟩
  have noLetter : NoLetter s := by
    intro b hb isLetter
    obtain ⟨a, rfl⟩ := List.head?_eq_some_iff.mp hb
    exact letter ⟨b, a, rfl, isLetter⟩
  have alone : ∀ k, afterInteger positive significand dropped ⟨k, []⟩ = _ :=
    fun k => afterInteger_end (by simp) (by simp [NoLetter]) positive significand dropped k
  rw [afterInteger_end noDot noLetter] at h
  split at h
  · next inexact =>
    obtain ⟨rfl, same⟩ := floatToken_eq_ok h
    exact ⟨[], rfl, ⟨[], .none [], .none []⟩, fun k => ⟨k, by rw [alone, if_pos inexact, same]⟩⟩
  · next exact =>
    cases h
    exact ⟨[], rfl, ⟨[], .none [], .none []⟩, fun k => ⟨k, by rw [alone, if_neg exact]⟩⟩

/-- Whatever is read as a number is the token of one, and alone it gives the same. -/
theorem sourced_numberToken : Sourced (numberToken positive) Unsigned := by
  intro n s x c h
  obtain ⟨digits, rest, rfl, all, stop⟩ := exists_digits s
  by_cases empty : digits = []
  · subst empty
    cases rest with
    | nil => cases h
    | cons b rest =>
      have notDigit := stop b rfl
      have notZero : b ≠ Ascii.zero := by
        rintro rfl
        exact absurd notDigit (by decide)
      simp [numberToken, notZero, notDigit] at h
  obtain ⟨d, more, rfl, digit⟩ := head_of_digits empty all
  by_cases zero : d = Ascii.zero
  · subst zero
    cases more with
    | cons b more =>
      rw [List.forall_mem_cons, List.forall_mem_cons] at all
      simp [numberToken, all.2.1] at h
    | nil =>
      rw [List.singleton_append, numberToken_zero stop] at h
      obtain ⟨token, rfl, ⟨a, isFraction, isExponent⟩, alone⟩ :=
        sourced_afterInteger _ _ _ _ _ _ _ h
      refine ⟨Ascii.zero :: token, rfl, ⟨.zero token, isFraction, isExponent⟩, fun k => ?_⟩
      have stop := noDigit_of_fraction isFraction isExponent delimited_nil
      rw [List.append_nil] at stop
      rw [numberToken_zero stop]
      exact alone (k + 1)
  · obtain ⟨significand, left, value⟩ : ∃ significand left,
        appendDigits significandBound 0 ((d :: more).map Ascii.digitValue) = (significand, left) :=
      ⟨_, _, rfl⟩
    rw [numberToken_append zero all stop positive n value] at h
    obtain ⟨token, rfl, ⟨a, isFraction, isExponent⟩, alone⟩ :=
      sourced_afterInteger _ _ _ _ _ _ _ h
    have isWhole : Whole (d :: more ++ token) token := .digits zero (digits_append empty all token)
    refine ⟨d :: more ++ token, (List.append_assoc _ _ _).symm, ⟨isWhole, isFraction, isExponent⟩,
      fun k => ?_⟩
    have stop := noDigit_of_fraction isFraction isExponent delimited_nil
    rw [List.append_nil] at stop
    rw [numberToken_append zero all stop positive k value]
    exact alone _

theorem value_of_digits {b : UInt8} (digit : Ascii.isDigit b = true) {n : Nat} {s : Bytes}
    {x : Number} {c : Cursor} (h : numberToken true ⟨n, b :: s⟩ = .ok (x, c)) :
    ∃ token, Grammar.Value (.number token) (b :: s) c.rest ∧ tokenValue? token = some x := by
  obtain ⟨token, same, isUnsigned, alone⟩ := sourced_numberToken _ _ _ _ _ h
  obtain ⟨d, more, rfl, -⟩ := unsigned_head isUnsigned
  obtain ⟨rfl, rfl⟩ := List.cons.inj same
  obtain ⟨m, alone⟩ := alone 0
  refine ⟨b :: more, .number c.rest (.positive isUnsigned), ?_⟩
  rw [tokenValue?_digit digit, alone]
  rfl

theorem value_of_minus {n : Nat} {s : Bytes} {x : Number} {c : Cursor}
    (h : numberToken false ⟨n, s⟩ = .ok (x, c)) :
    ∃ token, Grammar.Value (.number token) (Ascii.minus :: s) c.rest ∧
      tokenValue? token = some x := by
  obtain ⟨token, rfl, isUnsigned, alone⟩ := sourced_numberToken _ _ _ _ _ h
  obtain ⟨m, alone⟩ := alone 0
  refine ⟨Ascii.minus :: token, .number _ (.negative isUnsigned), ?_⟩
  show Option.map _ (numberToken false ⟨0, token⟩).toOption = some x
  rw [alone]
  rfl

end TargetQuery.Json
