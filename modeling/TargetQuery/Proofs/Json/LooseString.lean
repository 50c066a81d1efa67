import TargetQuery.Proofs.Json.StringToken

/-!
# Strings that nobody asks for

The lax reading of a string ends at the first quote that is not escaped. It takes everything that a
strict reading takes.
-/

namespace TargetQuery.Json

open Grammar

/-- What a lax reading leaves behind the closing quote. -/
def looseRest : StringState → Bytes → Option Bytes
  | _, [] => none
  | st, b :: rest =>
    if st = .plain ∧ b = Ascii.doubleQuote then some rest
    else match stringStep false st b with
      | .ok (_, st) => looseRest st rest
      | .error _ => none

theorem looseRest_close (rest : Bytes) :
    looseRest .plain (Ascii.doubleQuote :: rest) = some rest := by
  simp [looseRest]

theorem looseRest_plain {b : UInt8} (s : Bytes) (h : IsPlain b) :
    looseRest .plain (b :: s) = looseRest .plain s := by
  rw [looseRest, if_neg (fun e => h.2.1 e.2), stringStep_plain false h]

theorem looseRest_backslash (s : Bytes) :
    looseRest .plain (Ascii.backslash :: s) = looseRest .escape s := by
  rw [looseRest, if_neg (fun e => absurd e.2 (by decide))]
  rfl

theorem looseRest_unit (s : Bytes) :
    looseRest .escape (letterU :: s) = looseRest (.hex none (some 0) 3) s := by
  rw [looseRest, if_neg (escape_inside _)]
  rfl

theorem looseRest_letter {b : UInt8} {c : Char} (s : Bytes) (h : Letter b c) :
    looseRest .escape (b :: s) = looseRest .plain s := by
  obtain ⟨e, he⟩ : ∃ e, escapeByte? b = some e := by
    cases h <;> exact ⟨_, escapeByte?_eq_some_iff.mpr ⟨_, by constructor, rfl⟩⟩
  rw [looseRest, if_neg (escape_inside _), stringStep, if_neg (by simpa using h.ne_letterU)]
  simp [he]

theorem looseRest_digit (value : Option Nat) (k : Nat) (b : UInt8) (s : Bytes) :
    looseRest (.hex none value (k + 1)) (b :: s)
      = looseRest (.hex none (appendHex value b) k) s := by
  rw [looseRest, if_neg (hex_inside _ _ _ _), stringStep_hex_succ]

theorem looseRest_hex_eq_some_iff {s rest : Bytes} :
    looseRest (.hex none (some 0) 3) s = some rest ↔
      ∃ u more, Quad u s more ∧ looseRest .plain more = some rest := by
  constructor
  · intro h
    rcases s with _ | ⟨x, _ | ⟨y, _ | ⟨z, _ | ⟨w, more⟩⟩⟩⟩
    case cons.cons.cons.cons =>
      rw [looseRest_digit, looseRest_digit, looseRest_digit, looseRest,
        if_neg (hex_inside _ _ _ _), stringStep_hex_zero] at h
      cases value : appendHex (appendHex (appendHex (appendHex (some 0) x) y) z) w with
      | none => simp [value] at h
      | some u =>
        simp only [value, unitStep] at h
        exact ⟨u, more, (appendHex_eq_some_iff more).mp value, h⟩
    all_goals simp [looseRest, stringStep] at h
  · rintro ⟨u, more, quad, h⟩
    cases quad with
    | mk _ ha hb hc hd =>
      have value := (appendHex_eq_some_iff more).mpr (Quad.mk more ha hb hc hd)
      rw [looseRest_digit, looseRest_digit, looseRest_digit, looseRest,
        if_neg (hex_inside _ _ _ _), stringStep_hex_zero, value]
      exact h

theorem looseRest_of_looseChars {s rest : Bytes} (h : LooseChars s rest) :
    looseRest .plain s = some rest := by
  induction h with
  | close rest => exact looseRest_close rest
  | plain low notQuote notBackslash _ ih =>
    rw [looseRest_plain _ ⟨low, notQuote, notBackslash⟩, ih]
  | letter letter _ ih => rw [looseRest_backslash, looseRest_letter _ letter, ih]
  | unit quad _ ih =>
    rw [looseRest_backslash, looseRest_unit]
    exact looseRest_hex_eq_some_iff.mpr ⟨_, _, quad, ih⟩

/-- What the machine passes up to a quote is the rest of a string. -/
theorem looseChars_of_looseRest {s rest : Bytes} (h : looseRest .plain s = some rest) :
    LooseChars s rest := by
  -- An escape sequence takes several bytes, so the induction is on the length.
  induction hn : s.length using Nat.strongRecOn generalizing s with
  | ind n ih =>
    subst hn
    cases s with
    | nil => cases h
    | cons b s =>
      by_cases quote : b = Ascii.doubleQuote
      · subst quote
        rw [looseRest_close, Option.some.injEq] at h
        exact h ▸ .close s
      by_cases backslash : b = Ascii.backslash
      · subst backslash
        rw [looseRest_backslash] at h
        cases s with
        | nil => cases h
        | cons e s =>
          by_cases unit : e = letterU
          · subst unit
            rw [looseRest_unit] at h
            obtain ⟨u, more, quad, h⟩ := looseRest_hex_eq_some_iff.mp h
            have shorter := quad.length_le
            exact .unit quad (ih _ (by simp only [List.length_cons]; omega) h rfl)
          · cases he : escapeByte? e with
            | none =>
              rw [looseRest, if_neg (escape_inside _), stringStep,
                if_neg (by simpa using unit)] at h
              simp [he] at h
            | some x =>
              obtain ⟨c, letter, _⟩ := escapeByte?_eq_some_iff.mp he
              rw [looseRest_letter _ letter] at h
              exact .letter letter (ih _ (by simp only [List.length_cons]; omega) h rfl)
      · by_cases control : b < 0x20
        · rw [looseRest, if_neg (fun e => quote e.2)] at h
          simp [stringStep, backslash, control] at h
        · have plain : IsPlain b := ⟨UInt8.not_lt.mp control, quote, backslash⟩
          rw [looseRest_plain _ plain] at h
          exact .plain plain.1 quote backslash (ih _ (Nat.lt_succ_self _) h rfl)

theorem looseRest_eq_some_iff {s rest : Bytes} :
    looseRest .plain s = some rest ↔ LooseChars s rest :=
  ⟨looseChars_of_looseRest, looseRest_of_looseChars⟩

/-! ### Strict strings are loose -/

theorem Grammar.LooseChars.append {s rest : Bytes} (bytes : Bytes) (h : ∀ b ∈ bytes, IsPlain b)
    (after : LooseChars s rest) : LooseChars (bytes ++ s) rest := by
  induction bytes with
  | nil => exact after
  | cons b bytes ih =>
    rw [List.forall_mem_cons] at h
    exact .plain h.1.1 h.1.2.1 h.1.2.2 (ih h.2)

theorem Grammar.Chars.looseChars {cs : List Char} {s rest : Bytes} (h : Chars cs s rest) :
    LooseChars s rest := by
  induction h with
  | close rest => exact .close rest
  | plain low notQuote notBackslash _ ih =>
    exact .append _ ((isPlain_encodeChar_iff _).mpr ⟨low, notQuote, notBackslash⟩) ih
  | escape he _ ih =>
    cases he with
    | letter _ letter => exact .letter letter ih
    | unit quad _ => exact .unit quad ih
    | pair lead _ _ trail _ _ => exact .unit lead (.unit trail ih)

theorem Grammar.Quoted.looseChars {t : Option String} {s rest : Bytes} (h : Quoted t s rest) :
    ∃ a, s = Ascii.doubleQuote :: a ∧ LooseChars a rest := by
  cases h with
  | strict h => exact ⟨_, rfl, h.looseChars⟩
  | loose h => exact ⟨_, rfl, h⟩

end TargetQuery.Json
