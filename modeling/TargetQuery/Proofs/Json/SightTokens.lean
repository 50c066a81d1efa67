import TargetQuery.Proofs.Json.NumberToken
import TargetQuery.Proofs.Json.ScalarReading
import TargetQuery.Proofs.Json.Sight
import TargetQuery.Proofs.Json.SteadyTokens

/-!
# How far tokens are looked at

Words, numbers and skipped values are noticed to be wrong at the byte that is wrong. A string is
taken up to its closing quote before its bytes are checked to be text. Its resolved bytes are fewer
than its own, so what is pointed at still lies in it.
-/

namespace TargetQuery.Json

open Grammar Reader

variable {α : Type} {n : Nat} {s : Bytes}

/-! ### Strings -/

/-- The same place for a lax reading, which does not pair surrogates. -/
def StringState.loose : StringState → StringState
  | .hex _ value after => .hex none value after
  | .pairBackslash _ => .plain
  | .pairLetter _ => .escape
  | st => st

/-- How many bytes of an escape have been taken beyond those that make up for the last one. -/
def StringState.behind : StringState → Nat
  | .hex _ _ after => 3 - after
  | _ => 0

theorem length_encodeChar_le (c : Char) : (Utf8.encodeChar c).length ≤ 4 := by
  rw [Utf8.encodeChar]
  repeat' split
  all_goals simp

/-- Four digits stand for a character, or lead to the other half of one. -/
theorem unitStep_eq_ok {lead : Option Nat} {u : Nat} {out : Bytes} {next : StringState}
    (h : unitStep true lead u = .ok (out, next)) :
    out.length + next.behind ≤ 4 ∧ next.loose = .plain := by
  have char : ∀ c, (Utf8.encodeChar c).length + StringState.plain.behind ≤ 4 :=
    fun c => length_encodeChar_le c
  cases lead with
  | none =>
    obtain ⟨-, -, bytes, leads⟩ | ⟨-, bytes, leads⟩ := unitStep_none_eq_ok h
    · rw [bytes, leads]
      exact ⟨Nat.zero_le _, rfl⟩
    · rw [bytes, leads]
      exact ⟨char _, rfl⟩
  | some lead =>
    obtain ⟨-, -, leads, bytes⟩ := unitStep_some_eq_ok h
    rw [bytes, leads]
    exact ⟨char _, rfl⟩

/-- A lax reading takes what a strict one takes. -/
theorem stringStep_loose {st next : StringState} {b : UInt8} {out : Bytes}
    (h : stringStep true st b = .ok (out, next)) :
    ∃ out', stringStep false st.loose b = .ok (out', next.loose) := by
  cases st with
  | plain =>
    have fixed : next.loose = next := by
      rw [stringStep] at h
      repeat' split at h
      all_goals cases h
      all_goals rfl
    exact ⟨out, by rw [fixed]; exact h⟩
  | escape =>
    have fixed : next.loose = next := by
      rw [stringStep] at h
      repeat' split at h
      all_goals cases h
      all_goals rfl
    exact ⟨out, by rw [fixed]; exact h⟩
  | hex lead value after =>
    cases after with
    | succ k =>
      obtain ⟨rfl, rfl⟩ := Prod.mk.inj (Except.ok.inj h)
      exact ⟨[], rfl⟩
    | zero =>
      rw [stringStep_hex_zero] at h
      cases value' : appendHex value b with
      | none => simp [value'] at h
      | some u =>
        rw [value'] at h
        refine ⟨[], ?_⟩
        rw [StringState.loose, stringStep_hex_zero, value', (unitStep_eq_ok h).2]
        rfl
  | pairBackslash lead =>
    rw [stringStep] at h
    split at h
    · next backslash =>
      cases h
      exact ⟨[], by rw [eq_of_beq backslash]; rfl⟩
    · cases h
  | pairLetter lead =>
    rw [stringStep] at h
    split at h
    · next unit =>
      cases h
      exact ⟨[], by rw [eq_of_beq unit]; rfl⟩
    · cases h

/-- No escape resolves to more bytes than it has itself. -/
theorem stringStep_length {st next : StringState} {b : UInt8} {out : Bytes}
    (h : stringStep true st b = .ok (out, next)) :
    out.length + next.behind ≤ st.behind + 1 := by
  cases st with
  | hex lead value after =>
    cases after with
    | succ k =>
      obtain ⟨rfl, rfl⟩ := Prod.mk.inj (Except.ok.inj h)
      simp only [List.length_nil, StringState.behind]
      omega
    | zero =>
      rw [stringStep_hex_zero] at h
      cases value' : appendHex value b with
      | none => simp [value'] at h
      | some u =>
        rw [value'] at h
        exact (unitStep_eq_ok h).1
  | plain | escape | pairBackslash | pairLetter =>
    rw [stringStep] at h
    repeat' split at h
    all_goals cases h
    all_goals simp [StringState.behind]

theorem unitStep_ne_badUnicode {strict : Bool} {lead : Option Nat} {u : Nat} :
    unitStep strict lead u ≠ .error .badUnicode := by
  rw [unitStep.eq_def]
  repeat' split
  all_goals simp

/-- The fault of a byte is never that it is no text. -/
theorem stringStep_ne_badUnicode (strict : Bool) (st : StringState) (b : UInt8) :
    stringStep strict st b ≠ .error .badUnicode := by
  cases st with
  | hex lead value after =>
    cases after with
    | succ k => simp [stringStep]
    | zero =>
      rw [stringStep_hex_zero]
      cases appendHex value b with
      | none => simp
      | some u => exact unitStep_ne_badUnicode
  | plain | escape | pairBackslash | pairLetter =>
    rw [stringStep]
    repeat' split
    all_goals simp

/-- The resolved bytes of a string from some place in it on. -/
def stringBytes (st : StringState) : Reader Bytes := fun c => stringFrom c.offset st c.rest

theorem stringBytes_cons {st : StringState} {b : UInt8}
    (inside : ¬ (st = .plain ∧ b = Ascii.doubleQuote)) (n : Nat) (s : Bytes) :
    stringBytes st ⟨n, b :: s⟩ =
      match stringStep true st b with
      | .error fault => .error ⟨.fault fault, n + 1⟩
      | .ok (out, next) => ((out ++ ·) <$> stringBytes next) ⟨n + 1, s⟩ := by
  rw [stringBytes, stringFrom, if_neg inside]
  cases stringStep true st b with
  | error fault => rfl
  | ok step =>
    simp only [Functor.map, StateT.map, bind, Except.bind, stringBytes]
    cases stringFrom (n + 1) step.2 s <;> rfl

/-- The bytes of a string are taken one by one, without looking ahead. -/
theorem shortsighted_stringBytes (st : StringState) : Shortsighted (stringBytes st) := by
  intro n s
  induction s generalizing n st with
  | nil => exact .ended rfl rfl (by simp)
  | cons b s ih =>
    by_cases quote : st = .plain ∧ b = Ascii.doubleQuote
    · obtain ⟨rfl, rfl⟩ := quote
      exact .took (u := [Ascii.doubleQuote]) rfl (stringFrom_close n s)
        fun t _ _ _ => stringFrom_close n t
    · have step := stringBytes_cons quote n
      cases next : stringStep true st b with
      | error fault =>
        simp only [next] at step
        refine .stopped (u := [b]) rfl (shows_of_offset ?_ ?_ ?_ ?_) step
        · intro text
          obtain rfl := Cause.fault.inj text
          exact stringStep_ne_badUnicode true st b next
        · exact Nat.le_succ n
        · exact Nat.le_refl _
        · exact Nat.le_succ _
      | ok result =>
        simp only [next] at step
        exact .of_step (u := [b]) rfl (step s) (fun t _ _ _ => step t) ((ih result.2 (n + 1)).map _)

/-- A string is what its bytes up to the closing quote say, whatever follows. -/
theorem stringBytes_eq_ok {st : StringState} {out : Bytes} {c : Cursor}
    (h : stringBytes st ⟨n, s⟩ = .ok (out, c)) :
    ∃ u w, s = u ++ w ∧ c = ⟨n + u.length, w⟩ ∧ looseRest st.loose u = some [] ∧
      out.length < u.length + st.behind ∧
      ∀ t, stringBytes st ⟨n, u ++ t⟩ = .ok (out, ⟨n + u.length, t⟩) := by
  induction s generalizing n st out with
  | nil => cases h
  | cons b s ih =>
    by_cases quote : st = .plain ∧ b = Ascii.doubleQuote
    · obtain ⟨rfl, rfl⟩ := quote
      have close := fun t => stringFrom_close n t
      obtain ⟨rfl, rfl⟩ := Prod.mk.inj (Except.ok.inj ((close s).symm.trans h))
      exact ⟨[Ascii.doubleQuote], s, rfl, rfl, looseRest_close [], Nat.one_pos, close⟩
    · have step := stringBytes_cons quote n
      cases next : stringStep true st b with
      | error fault =>
        rw [step, next] at h
        cases h
      | ok result =>
        obtain ⟨first, st'⟩ := result
        simp only [next] at step
        rw [step] at h
        obtain ⟨more, rest, rfl⟩ := map_eq_ok.mp h
        obtain ⟨u, w, rfl, rfl, loose, shorter, again⟩ := ih rest
        have length : n + 1 + u.length = n + (b :: u).length := by
          rw [List.length_cons, Nat.add_assoc, Nat.add_comm 1]
        refine ⟨b :: u, w, rfl, by rw [length], ?_, ?_, fun t => ?_⟩
        · obtain ⟨out', lax⟩ := stringStep_loose next
          have inside : ¬ (st.loose = .plain ∧ b = Ascii.doubleQuote) := by
            rintro ⟨plain, rfl⟩
            cases st with
            | plain => exact quote ⟨rfl, rfl⟩
            | pairBackslash lead => cases next
            | escape | hex | pairLetter => cases plain
          rw [looseRest, if_neg inside, lax]
          exact loose
        · have := stringStep_length next
          rw [List.length_append, List.length_cons]
          omega
        · rw [List.cons_append, step, ← length]
          exact map_eq_ok.mpr ⟨more, again t, rfl⟩

/-- A string token is taken without looking behind its quote. -/
theorem shortsighted_stringToken : Shortsighted stringToken := by
  intro n s
  rw [stringToken_eq]
  change Rests (stringBytes .plain >>= textOf) n s
  cases shortsighted_stringBytes .plain n s with
  | ended ends offset noText => exact .ended (bind_of_error ends) offset noText
  | stopped split shows again => exact .stopped split shows fun t => bind_of_error (again t)
  | @took out _ _ _ ends _ =>
    obtain ⟨u, w, rfl, place, loose, shorter, again⟩ := stringBytes_eq_ok ends
    cases decoded : Utf8.decode? out with
    | some text =>
      have whole : ∀ t, (stringBytes .plain >>= textOf) ⟨n, u ++ t⟩
          = .ok (text, ⟨n + u.length, t⟩) := by
        intro t
        rw [bind_of_ok (again t), textOf, decoded]
        rfl
      exact .took rfl (whole w) fun t _ _ _ => whole t
    | none =>
      have broken : ∀ t, (stringBytes .plain >>= textOf) ⟨n, u ++ t⟩
          = .error ⟨.fault .badUnicode, n + u.length - (out.length - Utf8.soundLength out)⟩ := by
        intro t
        rw [bind_of_ok (again t), textOf, decoded]
        rfl
      have within : out.length < u.length := shorter
      refine .stopped rfl ⟨?_, ?_, fun noText => absurd rfl noText, fun _ => ?_⟩ broken
      · dsimp only
        omega
      · exact Nat.sub_le _ _
      · refine ⟨[], u, rfl, looseRest_eq_some_iff.mp loose, ?_⟩
        simp only [List.length_nil]
        omega

/-! ### Numbers -/

theorem shortsighted_floatToken (positive : Bool) (significand : Nat) (exponent : Int) :
    Shortsighted (floatToken positive significand exponent) := by
  intro n s
  cases value : scaled? significand exponent with
  | none =>
    refine rests_error_here (e := ⟨.fault .numberRange, n⟩) (by simp) rfl fun t => ?_
    rw [floatToken, value]
  | some f =>
    have whole : ∀ t, floatToken positive significand exponent ⟨n, t⟩
        = .ok (.float (if positive then f else -f), ⟨n, t⟩) := by
      intro t
      rw [floatToken, value]
    exact .took (u := []) rfl (whole s) fun t _ _ _ => whole t

/-- The digits that do not fit stay the same when more digits follow. -/
theorem appendDigits_append {bound m e : Nat} {digits left : List Nat} (more : List Nat)
    (h : appendDigits bound m digits = (e, left)) (spare : left ≠ []) :
    appendDigits bound m (digits ++ more) = (e, left ++ more) := by
  induction digits generalizing m with
  | nil =>
    obtain ⟨-, rfl⟩ := Prod.mk.inj h
    exact absurd rfl spare
  | cons d digits ih =>
    rw [appendDigits] at h
    rw [List.cons_append, appendDigits]
    split
    · next fits =>
      rw [if_pos fits] at h
      exact ih h
    · next tooBig =>
      rw [if_neg tooBig] at h
      obtain ⟨rfl, rfl⟩ := Prod.mk.inj h
      rfl

/-- The first digit that does not fit, with the digits before it. -/
theorem exists_firstSpare {bound m e : Nat} {digits left : List Nat}
    (h : appendDigits bound m digits = (e, left)) (spare : left ≠ []) :
    ∃ before d after, digits = before ++ d :: after ∧ left = d :: after ∧
      appendDigits bound m (before ++ [d]) = (e, [d]) := by
  induction digits generalizing m with
  | nil =>
    obtain ⟨-, rfl⟩ := Prod.mk.inj h
    exact absurd rfl spare
  | cons x digits ih =>
    rw [appendDigits] at h
    split at h
    · next fits =>
      obtain ⟨before, d, after, rfl, rfl, first⟩ := ih h
      refine ⟨x :: before, d, after, rfl, rfl, ?_⟩
      rw [List.cons_append, appendDigits, if_pos fits, first]
    · next tooBig =>
      obtain ⟨rfl, rfl⟩ := Prod.mk.inj h
      exact ⟨[], x, digits, rfl, rfl, by rw [List.nil_append, appendDigits, if_neg tooBig]⟩

/-- Digits that do not fit are passed over, but the error shows at the first of them. -/
theorem shortsighted_exponentDigits (positive : Bool) (significand : Nat) (start : Int)
    (up : Bool) : Shortsighted (exponentDigits positive significand start up) := by
  intro n s
  obtain ⟨digits, rest, rfl, all, stop⟩ := exists_digits s
  by_cases empty : digits = []
  · subst empty
    rw [List.nil_append]
    cases rest with
    | nil => exact .ended rfl rfl (by simp)
    | cons b rest =>
      refine rests_error_next (e := ⟨.fault .badNumber, n + 1⟩) (by simp) ?_ rfl fun c t first => ?_
      · simp [exponentDigits, stop b rfl]
      · obtain rfl := Option.some.inj first
        simp [exponentDigits, stop b rfl]
  obtain ⟨e, left, value⟩ : ∃ e left,
      appendDigits exponentBound 0 (digits.map Ascii.digitValue) = (e, left) := ⟨_, _, rfl⟩
  have step := fun t (stop : NoDigit t) =>
    exponentDigits_append empty all stop positive significand start up n value
  by_cases beyond : left ≠ [] ∧ (significand != 0 && up) = true
  · -- The first digit that does not fit shows the error, whatever digits follow.
    obtain ⟨before, d, after, split, rfl, first⟩ := exists_firstSpare value beyond.1
    obtain ⟨front, more, rfl, rfl, back⟩ := List.map_eq_append_iff.mp split
    obtain ⟨b, more, rfl, rfl, rfl⟩ := List.map_eq_cons_iff.mp back
    rw [List.forall_mem_append, List.forall_mem_cons] at all
    have offset : n + ((front ++ b :: more).length - (b :: more).length) + 1
        = n + (front ++ [b]).length := by
      simp only [List.length_append, List.length_cons, List.length_nil]
      omega
    refine .stopped (e := ⟨.fault .numberRange, n + (front ++ [b]).length⟩) (u := front ++ [b])
      (w := more ++ rest) (by simp) (shows_of_offset (by simp) ?_ ?_ ?_) fun t => ?_
    · exact Nat.le_add_right _ _
    · exact Nat.le_refl _
    · exact Nat.le_succ _
    · obtain ⟨digits', rest', rfl, all', stop'⟩ := exists_digits t
      have value' := appendDigits_append (digits'.map Ascii.digitValue) first (by simp)
      rw [← List.map_singleton, ← List.map_append, ← List.map_append] at value'
      have every : ∀ x ∈ front ++ [b] ++ digits', Ascii.isDigit x = true := by
        rw [List.forall_mem_append, List.forall_mem_append, List.forall_mem_singleton]
        exact ⟨⟨all.1, all.2.1⟩, all'⟩
      rw [← List.append_assoc, exponentDigits_append (by simp) every stop' positive significand
        start up n value', if_neg (by simp), if_pos beyond.2]
      simp only [List.length_append, List.length_cons, List.length_map, List.length_nil,
        Except.error.injEq, Error.mk.injEq, true_and]
      omega
  · have goesOn : ∀ t, NoDigit t → exponentDigits positive significand start up ⟨n, digits ++ t⟩ =
        (if left.isEmpty then floatToken positive significand (if up then start + e else start - e)
        else pure (.float (if positive then 0.0 else -0.0))) ⟨n + digits.length, t⟩ := by
      intro t stop
      rw [step t stop]
      by_cases fits : left.isEmpty = true
      · rw [if_pos fits, if_pos fits]
      · rw [if_neg fits, if_neg fits, if_neg]
        · rfl
        · exact fun h => beyond ⟨by simpa using fits, h⟩
    refine .of_step rfl (goesOn rest stop)
      (fun t b first same => goesOn t (noDigit_of_head stop first same)) ?_
    split
    · exact shortsighted_floatToken _ _ _ _ _
    · exact rests_pure _

theorem shortsighted_exponentPart (positive : Bool) (significand : Nat) (start : Int) :
    Shortsighted (exponentPart positive significand start) := by
  refine shortsighted_peek.bind fun below => ?_
  have digits := shortsighted_exponentDigits positive significand start (below != some Ascii.minus)
  split
  · exact shortsighted_skip.bind fun _ => digits
  · exact (shortsighted_pure ()).bind fun _ => digits

theorem shortsighted_exponentOrEnd (positive : Bool) (significand : Nat) (exponent : Int) :
    Shortsighted (exponentOrEnd positive significand exponent) := by
  refine shortsighted_peek.bind fun b => ?_
  split
  · exact shortsighted_skip.bind fun _ => shortsighted_exponentPart _ _ _
  · exact shortsighted_floatToken _ _ _

theorem shortsighted_fractionPart (positive : Bool) (significand : Nat) (exponent : Int) :
    Shortsighted (fractionPart positive significand exponent) := by
  intro n s
  obtain ⟨digits, rest, rfl, all, stop⟩ := exists_digits s
  by_cases empty : digits = []
  · subst empty
    rw [List.nil_append]
    cases rest with
    | nil => exact .ended rfl rfl (by simp)
    | cons b rest =>
      have wrong : ∀ t, fractionPart positive significand exponent ⟨n, b :: t⟩
          = .error ⟨.fault .badNumber, n + 1⟩ := by
        intro t
        have noDigit : NoDigit (b :: t) := noDigit_of_head stop rfl rfl
        simp [fractionPart, takeDigits_noDigit noDigit]
      refine rests_error_next (e := ⟨.fault .badNumber, n + 1⟩) (by simp) (wrong rest) rfl
        fun c t first => ?_
      obtain rfl := Option.some.inj first
      exact wrong t
  · have step := fun t (stop : NoDigit t) =>
      fractionPart_append empty all stop positive significand exponent n
    exact .of_step rfl (step rest stop)
      (fun t b first same => step t (noDigit_of_head stop first same))
      (shortsighted_exponentOrEnd _ _ _ _ _)

theorem shortsighted_afterInteger (positive : Bool) (significand dropped : Nat) :
    Shortsighted (afterInteger positive significand dropped) := by
  refine shortsighted_peek.bind fun b => ?_
  split
  · exact shortsighted_skip.bind fun _ => shortsighted_fractionPart _ _ _
  split
  · exact shortsighted_skip.bind fun _ => shortsighted_exponentPart _ _ _
  split
  · exact shortsighted_floatToken _ _ _
  split
  · exact shortsighted_pure _
  split
  · exact shortsighted_pure _
  · exact shortsighted_pure _

/-- A number is taken with a look at the byte behind it, and no further. -/
theorem shortsighted_numberToken (positive : Bool) : Shortsighted (numberToken positive) := by
  intro n s
  obtain ⟨digits, rest, rfl, all, stop⟩ := exists_digits s
  by_cases empty : digits = []
  · subst empty
    rw [List.nil_append]
    cases rest with
    | nil => exact .ended rfl rfl (by simp)
    | cons b rest =>
      have noZero : b ≠ Ascii.zero := by
        rintro rfl
        exact absurd (stop _ rfl) (by decide)
      have wrong : ∀ t, numberToken positive ⟨n, b :: t⟩ = .error ⟨.fault .badNumber, n + 1⟩ := by
        intro t
        simp [numberToken, noZero, stop b rfl]
      refine rests_error_next (e := ⟨.fault .badNumber, n + 1⟩) (by simp) (wrong rest) rfl
        fun c t first => ?_
      obtain rfl := Option.some.inj first
      exact wrong t
  obtain ⟨d, more, rfl, digit⟩ := head_of_digits empty all
  by_cases zero : d = Ascii.zero
  · subst zero
    cases more with
    | cons x more =>
      rw [List.forall_mem_cons, List.forall_mem_cons] at all
      refine .stopped (e := ⟨.fault .badNumber, n + 2⟩) (u := [Ascii.zero, x])
        (w := more ++ rest) rfl (shows_of_offset (by simp) ?_ ?_ ?_) fun t => ?_
      · exact Nat.le_add_right _ _
      · exact Nat.le_refl _
      · exact Nat.le_succ _
      · simp [numberToken, all.2.1]
    | nil =>
      have step := fun t (stop : NoDigit t) => numberToken_zero stop positive n
      exact .of_step (u := [Ascii.zero]) rfl (step rest stop)
        (fun t b first same => step t (noDigit_of_head stop first same))
        (shortsighted_afterInteger _ _ _ _ _)
  · obtain ⟨m, left, value⟩ : ∃ m left,
        appendDigits significandBound 0 ((d :: more).map Ascii.digitValue) = (m, left) :=
      ⟨_, _, rfl⟩
    have step := fun t (stop : NoDigit t) => numberToken_append zero all stop positive n value
    exact .of_step rfl (step rest stop)
      (fun t b first same => step t (noDigit_of_head stop first same))
      (shortsighted_afterInteger _ _ _ _ _)

/-! ### Skipped values -/

theorem skipAfterStep_ne_badUnicode (stack : List Frame) (b : UInt8) :
    skipAfterStep stack b ≠ .fail .badUnicode := by
  cases stack with
  | nil => simp [skipAfterStep]
  | cons f below => cases f <;> grind [skipAfterStep]

theorem skipValueStep_ne_badUnicode (stack : List Frame) (b : UInt8) :
    skipValueStep stack b ≠ .fail .badUnicode := by
  rw [skipValueStep]
  repeat' split
  all_goals simp

theorem skipKeyStep_ne_badUnicode (stack : List Frame) (b : UInt8) :
    skipKeyStep stack b ≠ .fail .badUnicode := by
  rw [skipKeyStep]
  repeat' split
  all_goals simp

/-- A string that is skipped need not be text. -/
theorem skipStep_ne_badUnicode (st : SkipState) (stack : List Frame) (b : UInt8) :
    skipStep st stack b ≠ .fail .badUnicode := by
  have behind := skipAfterStep_ne_badUnicode stack b
  have value := skipValueStep_ne_badUnicode stack b
  have key := skipKeyStep_ne_badUnicode stack b
  have inside : ∀ st, stringStep false st b ≠ .error .badUnicode :=
    fun st => stringStep_ne_badUnicode false st b
  cases st with
  | number st => cases st <;> grind [skipStep, skipNumberStep]
  | word left => cases left <;> grind [skipStep]
  | opened =>
    cases stack with
    | nil => grind [skipStep]
    | cons f below => cases f <;> grind [skipStep]
  | text | keyText | value | key | colon | after => grind [skipStep]

theorem skipEnd_ne_badUnicode (st : SkipState) (stack : List Frame) :
    skipEnd st stack ≠ some .badUnicode := by
  have behind : stack.head?.map Frame.endFault ≠ some .badUnicode := by
    cases stack with
    | nil => simp
    | cons f below => cases f <;> simp [Frame.endFault]
  cases st <;> grind [skipEnd]

/-- Skips what is left of a value from some place in it on. -/
def skipRest (st : SkipState) (stack : List Frame) : Reader Unit := fun c =>
  (skipFrom c.offset st stack c.rest).map fun c => ((), c)

/-- Skipping takes one byte after the other, without looking ahead. -/
theorem shortsighted_skipRest (st : SkipState) (stack : List Frame) :
    Shortsighted (skipRest st stack) := by
  intro n s
  induction s generalizing n st stack with
  | nil =>
    cases missing : skipEnd st stack with
    | none =>
      refine .took (u := []) (w := []) (a := ()) rfl ?_ fun t b first => by cases first
      simp [skipRest, skipFrom, missing, Except.map]
    | some fault =>
      refine .ended (e := ⟨.fault fault, n⟩) ?_ rfl ?_
      · simp [skipRest, skipFrom, missing, Except.map]
      · intro text
        obtain rfl := Cause.fault.inj text
        exact skipEnd_ne_badUnicode st stack missing
  | cons b s ih =>
    cases step : skipStep st stack b with
    | stop =>
      have stops : ∀ t, skipRest st stack ⟨n, b :: t⟩ = .ok ((), ⟨n, b :: t⟩) := by
        intro t
        simp [skipRest, skipFrom, step, Except.map]
      refine .took (u := []) rfl (stops s) fun t c first same => ?_
      obtain rfl := Option.some.inj first
      cases t with
      | nil => cases same
      | cons c t =>
        obtain rfl := Option.some.inj same
        exact stops t
    | fail fault =>
      have offset : faultOffset fault n = n ∨ faultOffset fault n = n + 1 := by
        cases fault <;> simp [faultOffset]
      refine .stopped (e := ⟨.fault fault, faultOffset fault n⟩) (u := [b]) rfl
        (shows_of_offset ?_ ?_ ?_ ?_) fun t => ?_
      · intro text
        obtain rfl := Cause.fault.inj text
        exact skipStep_ne_badUnicode st stack b step
      · dsimp only
        omega
      · simp only [List.length_singleton]
        omega
      · simp only [List.length_singleton]
        omega
      · simp [skipRest, skipFrom, step, Except.map]
    | take st' stack' =>
      by_cases done : st' = .after ∧ stack' = []
      · have ends : ∀ t, skipRest st stack ⟨n, b :: t⟩ = .ok ((), ⟨n + 1, t⟩) := by
          intro t
          simp [skipRest, skipFrom, step, done, Except.map]
        exact .took (u := [b]) rfl (ends s) fun t _ _ _ => ends t
      · have goesOn : ∀ t, skipRest st stack ⟨n, b :: t⟩ = skipRest st' stack' ⟨n + 1, t⟩ := by
          intro t
          simp only [skipRest, skipFrom, step, done, if_false]
        exact .of_step (u := [b]) rfl (goesOn s) (fun t _ _ _ => goesOn t) (ih st' stack' (n + 1))

theorem shortsighted_skipValue : Shortsighted skipValue := shortsighted_skipRest .value []

/-! ### Values without parts -/

/-- Telling the kind of a value takes no look behind it. -/
theorem shortsighted_mistyped (expected : String) :
    Shortsighted (mistyped expected : Reader α) := by
  have said : ∀ found, Shortsighted (mismatch (.kind found expected) : Reader α) :=
    fun found => shortsighted_mismatch _
  have letters : ∀ w found, Shortsighted (do
      skip; word w; mismatch (.kind found expected) : Reader α) :=
    fun w found => shortsighted_skip.bind fun _ => (shortsighted_word w).bind fun _ => said found
  refine shortsighted_peek.bind fun b => ?_
  cases b with
  | none => exact shortsighted_failNext (by decide)
  | some b =>
    dsimp only
    split
    · exact letters ull _
    split
    · exact letters rue _
    split
    · exact letters alse _
    split
    · exact shortsighted_skip.bind fun _ => (shortsighted_numberToken false).bind fun _ => said _
    split
    · exact (shortsighted_numberToken true).bind fun _ => said _
    split
    · exact shortsighted_skip.bind fun _ => shortsighted_stringToken.bind fun _ => said _
    split
    · exact said _
    split
    · exact said _
    · exact shortsighted_failNext (by decide)

theorem shortsighted_boolValue : Shortsighted boolValue := by
  refine shortsighted_peekToken.bind fun b => ?_
  cases b with
  | none => exact shortsighted_failNext (by decide)
  | some b =>
    dsimp only
    split
    · exact shortsighted_skip.bind fun _ => (shortsighted_word rue).bind fun _ =>
        shortsighted_pure _
    split
    · exact shortsighted_skip.bind fun _ => (shortsighted_word alse).bind fun _ =>
        shortsighted_pure _
    · exact shortsighted_mistyped _

theorem shortsighted_textValue (expected : String) : Shortsighted (textValue expected) := by
  refine shortsighted_peekToken.bind fun b => ?_
  cases b with
  | none => exact shortsighted_failNext (by decide)
  | some b =>
    dsimp only
    split
    · exact shortsighted_skip.bind fun _ => shortsighted_stringToken
    · exact shortsighted_mistyped expected

theorem shortsighted_nullable {r : Reader α} (h : Shortsighted r) : Shortsighted (nullable r) := by
  rw [nullable_eq]
  refine shortsighted_peekToken.bind fun b => ?_
  split
  · exact shortsighted_skip.bind fun _ => (shortsighted_word ull).bind fun _ => shortsighted_pure _
  · exact h.map some

end TargetQuery.Json
