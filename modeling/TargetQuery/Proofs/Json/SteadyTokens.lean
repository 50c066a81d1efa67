import TargetQuery.Proofs.Json.ContentGrammar
import TargetQuery.Proofs.Json.SkippedValue
import TargetQuery.Proofs.Json.Truncation

/-!
# Tokens and skipped values that are cut off

Words and strings end with a byte of their own, so a cut is noticed in them. A skipped value may be
a number, which can end at a cut and still go on behind it.
-/

namespace TargetQuery.Json

open Grammar Reader

variable {α : Type}

/-- White space begins with a space, if it is not empty. -/
theorem Grammar.Blank.cons_inv {b : UInt8} {s : Bytes} (h : Blank (b :: s) []) :
    isSpace b = true ∧ Blank s [] := by
  cases h with
  | cons space h => exact ⟨space, h⟩

/-! ### Words -/

theorem word_blank {w q : Bytes} (nonempty : w ≠ []) (letters : ∀ b ∈ w, isSpace b = false)
    (blank : Blank q []) (n : Nat) : ∃ e, word w ⟨n, q⟩ = .error e := by
  cases w with
  | nil => exact absurd rfl nonempty
  | cons expected w =>
    cases q with
    | nil => exact ⟨_, rfl⟩
    | cons b q =>
      have other : b ≠ expected := by
        rintro rfl
        have letter := letters b List.mem_cons_self
        rw [blank.cons_inv.1] at letter
        cases letter
      exact ⟨_, by simp [word, bind, StateT.bind, Except.bind, next?, other, failHere]; rfl⟩

/-- A word does not depend on a cut behind it. -/
theorem steady_word {w : Bytes} (letters : ∀ b ∈ w, isSpace b = false) : Steady never (word w) := by
  induction w with
  | nil => exact steady_pure ()
  | cons expected w ih =>
    intro n p q
    cases p with
    | nil => exact .short fun blank => word_blank (List.cons_ne_nil _ _) letters blank n
    | cons b p =>
      by_cases e : b = expected
      · subst e
        have step : ∀ s, word (b :: w) ⟨n, b :: s⟩ = word w ⟨n + 1, s⟩ := by
          intro s
          simp [word, bind, StateT.bind, Except.bind, next?]
        rw [List.cons_append, step, step]
        exact (ih (List.forall_mem_cons.mp letters).2 (n + 1) p q).shift (u := [b])
      · have step : ∀ s, word (expected :: w) ⟨n, b :: s⟩
            = .error ⟨.fault .wordExpected, n + 1⟩ := by
          intro s
          simp [word, bind, StateT.bind, Except.bind, next?, e, failHere]
        rw [List.cons_append, step, step]
        exact .wrong

/-! ### Strings -/

theorem stringFrom_blank {q : Bytes} (blank : Blank q []) (n : Nat) (st : StringState) :
    ∃ e, stringFrom n st q = .error e := by
  induction q generalizing n st with
  | nil => exact ⟨_, by rw [stringFrom]⟩
  | cons b q ih =>
    have notQuote : ¬ (st = .plain ∧ b = Ascii.doubleQuote) := by
      rintro ⟨_, rfl⟩
      exact absurd blank.cons_inv.1 (by decide)
    rw [stringFrom, if_neg notQuote]
    cases stringStep true st b with
    | error f => exact ⟨_, rfl⟩
    | ok step =>
      obtain ⟨e, he⟩ := ih blank.cons_inv.2 (n + 1) step.2
      exact ⟨e, by simp [he, Except.map]⟩

/-- A cut in a string shows as the end of the text, and a cut behind it does not show. -/
theorem agrees_stringFrom (st : StringState) (n : Nat) (p q : Bytes) :
    Agrees never n p q (stringFrom n st p) (stringFrom n st (p ++ q)) := by
  induction p generalizing n st with
  | nil =>
    rw [stringFrom]
    exact .short fun blank => stringFrom_blank blank n st
  | cons b p ih =>
    rw [List.cons_append, stringFrom, stringFrom]
    by_cases quote : st = .plain ∧ b = Ascii.doubleQuote
    · rw [if_pos quote, if_pos quote]
      exact .same (u := [b]) rfl
    · rw [if_neg quote, if_neg quote]
      cases stringStep true st b with
      | error f => exact .wrong
      | ok step =>
        exact ((ih step.2 (n + 1)).map (step.1 ++ ·) fun _ => id).shift (u := [b])

/-- The text of resolved bytes, behind the string that they come from. -/
def textOf (s : Bytes) : Reader String := fun after =>
  (Utf8.decode? s).elim
    (.error ⟨.fault .badUnicode, after.offset - (s.length - Utf8.soundLength s)⟩)
    fun text => .ok (text, after)

theorem stringToken_eq :
    stringToken = (fun c => stringFrom c.offset .plain c.rest : Reader Bytes) >>= textOf := by
  funext c
  simp only [stringToken, bind, StateT.bind, Except.bind]
  cases stringFrom c.offset .plain c.rest with
  | error e => rfl
  | ok result =>
    simp only [textOf]
    cases Utf8.decode? result.1 <;> rfl

theorem steady_textOf (s : Bytes) : Steady never (textOf s) := by
  cases decoded : Utf8.decode? s with
  | some text =>
    have e : textOf s = pure text := by
      funext c
      rw [textOf, decoded]
      rfl
    rw [e]
    exact steady_pure text
  | none =>
    refine Stuck.steady fun c x => ?_
    simp [textOf, decoded]

theorem steady_stringToken : Steady never stringToken := by
  rw [stringToken_eq]
  have scans : Steady never (fun c => stringFrom c.offset .plain c.rest : Reader Bytes) :=
    fun n p q => agrees_stringFrom .plain n p q
  exact scans.bind steady_textOf

/-! ### Skipped values -/

theorem not_inNumber_of_space {b : UInt8} (space : isSpace b = true) : ¬ InNumber b := by
  intro inNumber
  simp [inNumber.not_space] at space

/-- A number does not go on with a space, whether it may end or not. -/
theorem nextInNumber?_of_space {b : UInt8} (space : isSpace b = true) (st : NumberState) :
    nextInNumber? st b = none := by
  have outside := not_inNumber_of_space space
  have notSign : ¬ (b = Ascii.plus ∨ b = Ascii.minus) := by
    rintro (rfl | rfl) <;> exact absurd space (by decide)
  have notZero : b ≠ Ascii.zero := by
    rintro rfl
    exact absurd space (by decide)
  simp only [InNumber, not_or] at outside
  cases st <;> simp [nextInNumber?, outside, notSign, notZero]

/-- A space leaves the machine where something is missing. -/
theorem skipStep_space {st : SkipState} {stack : List Frame} {f : Fault} {b : UInt8}
    (placed : Placed st stack) (missing : skipEnd st stack = some f) (space : isSpace b = true) :
    (∃ f, skipStep st stack b = .fail f) ∨
      ∃ st' f, skipStep st stack b = .take st' stack ∧ skipEnd st' stack = some f := by
  have notQuote : b ≠ Ascii.doubleQuote := by
    rintro rfl
    exact absurd space (by decide)
  have behind : ∀ {g}, stack.head?.map Frame.endFault = some g →
      skipAfterStep stack b = .take .after stack := by
    intro g missing
    cases stack with
    | nil => cases missing
    | cons f below => rw [skipAfterStep_cons, if_pos space]
  cases st with
  | value => exact .inr ⟨_, _, skipValueStep_space space, rfl⟩
  | word left =>
    cases left with
    | nil => exact absurd rfl placed.1
    | cons x left =>
      have other : b ≠ x := by
        rintro rfl
        simp [placed.2 b List.mem_cons_self] at space
      exact .inl ⟨.wordExpected, by simp [skipStep, other]⟩
  | number st =>
    have notDigit : Ascii.isDigit b = false := by
      simpa using fun digit => not_inNumber_of_space space (.inl digit)
    rw [skipStep, skipNumberStep_eq, nextInNumber?_of_space space]
    cases ends : st.mayEnd with
    | true =>
      have missing : stack.head?.map Frame.endFault = some f := by
        simpa [skipEnd, ends] using missing
      exact .inr ⟨.after, f, by simp [notDigit, behind missing], missing⟩
    | false => exact .inl ⟨.badNumber, by simp⟩
  | text st =>
    cases step : stringStep false st b with
    | ok next => exact .inr ⟨.text next.2, _, by simp [skipStep, notQuote, step], rfl⟩
    | error g => exact .inl ⟨g, by simp [skipStep, notQuote, step]⟩
  | key => exact .inr ⟨.key, _, by simp [skipStep, skipKeyStep, space], rfl⟩
  | keyText st =>
    cases step : stringStep false st b with
    | ok next => exact .inr ⟨.keyText next.2, _, by simp [skipStep, notQuote, step], rfl⟩
    | error g => exact .inl ⟨g, by simp [skipStep, notQuote, step]⟩
  | colon => exact .inr ⟨.colon, _, by simp [skipStep, space], rfl⟩
  | opened => exact .inr ⟨.opened, f, by simp [skipStep, space], missing⟩
  | after => exact .inr ⟨.after, f, behind missing, missing⟩

theorem skipFrom_blank {q : Bytes} {st : SkipState} {stack : List Frame} {f : Fault}
    (placed : Placed st stack) (missing : skipEnd st stack = some f) (blank : Blank q [])
    (n : Nat) : ∃ e, skipFrom n st stack q = .error e := by
  induction q generalizing n st f with
  | nil => exact ⟨_, by rw [skipFrom, missing]⟩
  | cons b q ih =>
    rw [skipFrom]
    rcases skipStep_space placed missing blank.cons_inv.1 with ⟨g, fails⟩ | ⟨st', g, takes, missing⟩
    · exact ⟨_, by rw [fails]⟩
    · have unfinished : ¬ (st' = .after ∧ stack = []) := by
        rintro ⟨rfl, rfl⟩
        cases missing
      rw [takes]
      simp only [unfinished, if_false]
      exact ih (placed_of_skipStep placed takes) missing blank.cons_inv.2 (n + 1)

/-- Only a number can end at the cut, and white space ends it there. -/
theorem skipFrom_delimited {q : Bytes} {st : SkipState} {stack : List Frame}
    (placed : Placed st stack) (complete : skipEnd st stack = none) (delimited : Delimited q)
    (n : Nat) : skipFrom n st stack q = .ok ⟨n, q⟩ := by
  cases q with
  | nil => rw [skipFrom, complete]
  | cons b q =>
    have outside := delimited b rfl
    have bare : ∀ {stack : List Frame}, stack.head?.map Frame.endFault = none → stack = [] := by
      intro stack h
      simpa using h
    have stops : skipStep st stack b = .stop := by
      cases st with
      | number st =>
        cases ends : st.mayEnd with
        | false => simp [skipEnd, ends] at complete
        | true =>
          obtain rfl := bare (by simpa [skipEnd, ends] using complete)
          have notDigit : Ascii.isDigit b = false := by
            simpa using fun digit => outside (.inl digit)
          rw [skipStep, skipNumberStep_eq, nextInNumber?_eq_none ends outside]
          simp [ends, notDigit, skipAfterStep]
      | opened =>
        obtain rfl := bare complete
        exact placed.elim
      | after =>
        obtain rfl := bare complete
        rfl
      | value | word | text | key | keyText | colon => cases complete
    rw [skipFrom, stops]

/-- What is skipped does not depend on a cut, unless the cut touches it. -/
theorem agrees_skipFrom {st : SkipState} {stack : List Frame} (placed : Placed st stack) (n : Nat)
    (p q : Bytes) :
    Agrees (fun _ => True) n p q ((skipFrom n st stack p).map fun c => ((), c))
      ((skipFrom n st stack (p ++ q)).map fun c => ((), c)) := by
  induction p generalizing n st stack with
  | nil =>
    rw [skipFrom]
    cases missing : skipEnd st stack with
    | some f =>
      refine .short fun blank => ?_
      obtain ⟨e, he⟩ := skipFrom_blank placed missing blank n
      exact ⟨e, by rw [List.nil_append, he]; rfl⟩
    | none =>
      refine .touching trivial fun blank => ?_
      rw [List.nil_append, skipFrom_delimited placed missing (blank.delimited delimited_nil) n]
      rfl
  | cons b p ih =>
    rw [List.cons_append, skipFrom, skipFrom]
    cases step : skipStep st stack b with
    | stop => exact .same (u := []) rfl
    | fail f => exact .wrong
    | take st' stack' =>
      simp only
      by_cases done : st' = .after ∧ stack' = []
      · rw [if_pos done, if_pos done]
        exact .same (u := [b]) rfl
      · rw [if_neg done, if_neg done]
        exact (ih (placed_of_skipStep placed step) (n + 1)).shift (u := [b])

/-- A number that ends at the cut may still go on behind it. -/
theorem steady_skipValue : Steady (fun _ => True) skipValue :=
  fun n p q => agrees_skipFrom (by simp [Placed]) n p q

end TargetQuery.Json
