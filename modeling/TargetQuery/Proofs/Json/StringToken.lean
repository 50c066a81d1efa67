import TargetQuery.Json.Text
import TargetQuery.Proofs.Json.Grammar
import TargetQuery.Proofs.Text.Utf8

/-!
# String tokens and their grammar

The machine that reads a string agrees with the rules for its characters: a strict reading gives the
text that the rules spell, and a lax one ends where the loose rules end. The strict reading checks
the encoding only once the string has ended, so soundness has to show that the bytes of a character
cannot be put together from a raw part and an escaped one.
-/

namespace TargetQuery.Json

open Grammar

/-! ### Bytes of characters -/

/-- A byte that only continues a character. -/
def IsContinuation (b : UInt8) : Prop := 0x80 ≤ b.toNat ∧ b.toNat < 0xC0

/-- A character is one ASCII byte, or a byte beyond the continuations and then continuations. -/
theorem encodeChar_cases (c : Char) :
    c.toNat < 0x80 ∧ Utf8.encodeChar c = [UInt8.ofNat c.toNat] ∨
      0x80 ≤ c.toNat ∧ ∃ b tail, Utf8.encodeChar c = b :: tail ∧ 0xC0 ≤ b.toNat ∧
        ∀ x ∈ tail, IsContinuation x := by
  have valid := Utf8.toNat_valid c
  have continuation : ∀ n : Nat, IsContinuation (UInt8.ofNat (0x80 + n % 0x40)) := by
    intro n
    rw [IsContinuation, Utf8.toNat_byte (by omega)]
    omega
  by_cases h1 : c.toNat < 0x80
  · exact .inl ⟨h1, Utf8.encodeChar_of_lt_80 h1⟩
  refine .inr ⟨by omega, ?_⟩
  by_cases h2 : c.toNat < 0x800
  · refine ⟨_, _, Utf8.encodeChar_of_lt_800 h1 h2, ?_, ?_⟩
    · rw [Utf8.toNat_byte (by omega)]
      omega
    · rw [List.forall_mem_singleton]
      exact continuation _
  by_cases h3 : c.toNat < 0x10000
  · refine ⟨_, _, Utf8.encodeChar_of_lt_10000 h2 h3, ?_, ?_⟩
    · rw [Utf8.toNat_byte (by omega)]
      omega
    · rw [List.forall_mem_cons, List.forall_mem_singleton]
      exact ⟨continuation _, continuation _⟩
  · refine ⟨_, _, Utf8.encodeChar_of_ge_10000 h3, ?_, ?_⟩
    · rw [Utf8.toNat_byte (by omega)]
      omega
    · rw [List.forall_mem_cons, List.forall_mem_cons, List.forall_mem_singleton]
      exact ⟨continuation _, continuation _, continuation _⟩

theorem encodeChar_ne_nil (c : Char) : Utf8.encodeChar c ≠ [] := by
  rcases encodeChar_cases c with ⟨_, h⟩ | ⟨_, b, tail, h, _⟩ <;> simp [h]

/-- A byte that a string may hold as itself. -/
def IsPlain (b : UInt8) : Prop := 0x20 ≤ b ∧ b ≠ Ascii.doubleQuote ∧ b ≠ Ascii.backslash

theorem IsPlain.of_ge {b : UInt8} (h : 0x80 ≤ b.toNat) : IsPlain b := by
  refine ⟨?_, ?_, ?_⟩
  · rw [UInt8.le_iff_toNat_le]
    exact Nat.le_trans (by decide) h
  · rintro rfl
    exact absurd h (by decide)
  · rintro rfl
    exact absurd h (by decide)

theorem eq_charOfNat {c : Char} {n : Nat} (h : c.toNat = n) : c = Char.ofNat n := by
  rw [← h, Char.ofNat_toNat]

/-- A character may stand as itself if and only if its bytes may. -/
theorem isPlain_encodeChar_iff (c : Char) :
    (∀ b ∈ Utf8.encodeChar c, IsPlain b) ↔ 0x20 ≤ c.toNat ∧ c ≠ '"' ∧ c ≠ '\\' := by
  rcases encodeChar_cases c with ⟨small, h⟩ | ⟨large, b, tail, h, hb, htail⟩
  · rw [h, List.forall_mem_singleton]
    simp only [IsPlain, UInt8.le_iff_toNat_le, ne_eq, ← UInt8.toNat_inj,
      Utf8.toNat_byte (n := c.toNat) (by omega)]
    refine and_congr Iff.rfl (and_congr (not_congr ?_) (not_congr ?_))
    · exact ⟨fun e => eq_charOfNat e, fun e => by rw [e]; rfl⟩
    · exact ⟨fun e => eq_charOfNat e, fun e => by rw [e]; rfl⟩
  · have distinct : c ≠ '"' ∧ c ≠ '\\' := by
      constructor <;> rintro rfl <;> exact absurd large (by decide)
    refine ⟨fun _ => ⟨by omega, distinct⟩, fun _ x hx => ?_⟩
    rw [h, List.mem_cons] at hx
    rcases hx with rfl | hx
    · exact .of_ge (by omega)
    · exact .of_ge (htail x hx).1

/-! ### One byte of the machine -/

theorem stringFrom_close (n : Nat) (rest : Bytes) :
    stringFrom n .plain (Ascii.doubleQuote :: rest) = .ok ([], ⟨n + 1, rest⟩) := by
  simp [stringFrom]

/-- A string that is read is read byte by byte. -/
theorem stringFrom_cons_eq_ok_iff {n : Nat} {st : StringState} {b : UInt8} {rest all : Bytes}
    {c : Cursor} (inside : ¬ (st = .plain ∧ b = Ascii.doubleQuote)) :
    stringFrom n st (b :: rest) = .ok (all, c) ↔
      ∃ out next more, stringStep true st b = .ok (out, next) ∧
        stringFrom (n + 1) next rest = .ok (more, c) ∧ all = out ++ more := by
  rw [stringFrom, if_neg inside]
  cases hs : stringStep true st b with
  | error f => simp
  | ok step =>
    obtain ⟨out, next⟩ := step
    dsimp only
    cases hr : stringFrom (n + 1) next rest with
    | error e => simp [Except.map, hr]
    | ok r =>
      obtain ⟨more, after⟩ := r
      simp only [Except.map, Except.ok.injEq, Prod.mk.injEq]
      constructor
      · rintro ⟨rfl, rfl⟩
        exact ⟨out, next, more, ⟨rfl, rfl⟩, hr, rfl⟩
      · rintro ⟨_, _, _, ⟨rfl, rfl⟩, h, rfl⟩
        rw [hr, Except.ok.injEq, Prod.mk.injEq] at h
        exact ⟨by rw [h.1], h.2⟩

/-- The value of hexadecimal digits with one more digit, unless one was bad. -/
def appendHex (value : Option Nat) (b : UInt8) : Option Nat :=
  match value, Ascii.hexValue? b with
  | some v, some d => some (v * 16 + d)
  | _, _ => none

theorem stringStep_hex_succ (strict : Bool) (lead value : Option Nat) (k : Nat) (b : UInt8) :
    stringStep strict (.hex lead value (k + 1)) b
      = .ok ([], .hex lead (appendHex value b) k) := rfl

theorem stringStep_hex_zero (strict : Bool) (lead value : Option Nat) (b : UInt8) :
    stringStep strict (.hex lead value 0) b
      = match appendHex value b with
        | some u => unitStep strict lead u
        | none => .error .badEscape := rfl

theorem hex_inside (lead value : Option Nat) (k : Nat) (b : UInt8) :
    ¬ (StringState.hex lead value k = .plain ∧ b = Ascii.doubleQuote) := by
  rintro ⟨h, _⟩
  cases h

theorem stringFrom_digit_eq_ok_iff {n k : Nat} {lead value : Option Nat} {b : UInt8}
    {rest all : Bytes} {c : Cursor} :
    stringFrom n (.hex lead value (k + 1)) (b :: rest) = .ok (all, c) ↔
      stringFrom (n + 1) (.hex lead (appendHex value b) k) rest = .ok (all, c) := by
  rw [stringFrom_cons_eq_ok_iff (hex_inside _ _ _ _)]
  constructor
  · rintro ⟨_, _, more, step, h, rfl⟩
    rw [stringStep_hex_succ, Except.ok.injEq, Prod.mk.injEq] at step
    obtain ⟨rfl, rfl⟩ := step
    exact h
  · intro h
    exact ⟨[], _, all, stringStep_hex_succ .., h, rfl⟩

/-- Four digits are a value if and only if they are all good. -/
theorem appendHex_eq_some_iff {a b c d : UInt8} {u : Nat} (rest : Bytes) :
    appendHex (appendHex (appendHex (appendHex (some 0) a) b) c) d = some u ↔
      Quad u (a :: b :: c :: d :: rest) rest := by
  constructor
  · intro h
    cases ha : Ascii.hexValue? a <;> cases hb : Ascii.hexValue? b <;>
      cases hc : Ascii.hexValue? c <;> cases hd : Ascii.hexValue? d <;>
      simp only [appendHex, ha, hb, hc, hd, Option.some.injEq, reduceCtorEq] at h
    subst h
    simpa using Quad.mk rest ha hb hc hd
  · intro h
    cases h with
    | mk _ ha hb hc hd => simp [appendHex, ha, hb, hc, hd]

/-- Behind a backslash and the letter of a code unit stand its four digits. -/
theorem stringFrom_hex_eq_ok_iff {n : Nat} {lead : Option Nat} {s all : Bytes} {c : Cursor} :
    stringFrom n (.hex lead (some 0) 3) s = .ok (all, c) ↔
      ∃ u rest out next more, Quad u s rest ∧ unitStep true lead u = .ok (out, next) ∧
        stringFrom (n + 4) next rest = .ok (more, c) ∧ all = out ++ more := by
  constructor
  · intro h
    rcases s with _ | ⟨x, _ | ⟨y, _ | ⟨z, _ | ⟨w, rest⟩⟩⟩⟩
    case cons.cons.cons.cons =>
      rw [stringFrom_digit_eq_ok_iff, stringFrom_digit_eq_ok_iff, stringFrom_digit_eq_ok_iff,
        stringFrom_cons_eq_ok_iff (hex_inside _ _ _ _)] at h
      obtain ⟨out, next, more, step, h, rfl⟩ := h
      rw [stringStep_hex_zero] at step
      split at step
      · next u hu =>
        exact ⟨u, rest, out, next, more, (appendHex_eq_some_iff rest).mp hu, step, h, rfl⟩
      · cases step
    all_goals simp [stringFrom, stringStep, Except.map] at h
  · rintro ⟨u, rest, out, next, more, quad, step, h, rfl⟩
    cases quad with
    | mk _ ha hb hc hd =>
      have value := (appendHex_eq_some_iff rest).mpr (Quad.mk rest ha hb hc hd)
      rw [stringFrom_digit_eq_ok_iff, stringFrom_digit_eq_ok_iff, stringFrom_digit_eq_ok_iff,
        stringFrom_cons_eq_ok_iff (hex_inside _ _ _ _), stringStep_hex_zero, value]
      exact ⟨out, next, more, step, h, rfl⟩

/-! ### Escape sequences -/

theorem escapeByte?_eq_some_iff {b e : UInt8} :
    escapeByte? b = some e ↔ ∃ c, Letter b c ∧ Utf8.encodeChar c = [e] := by
  constructor
  · intro h
    rw [escapeByte?] at h
    split at h
    · next hb =>
      obtain rfl : b = e := Option.some.inj h
      simp only [Bool.or_eq_true, beq_iff_eq] at hb
      rcases hb with (rfl | rfl) | rfl
      · exact ⟨_, .doubleQuote, rfl⟩
      · exact ⟨_, .backslash, rfl⟩
      · exact ⟨_, .slash, rfl⟩
    split at h
    · next hb =>
      rw [eq_of_beq hb, ← Option.some.inj h]
      exact ⟨_, .backspace, rfl⟩
    split at h
    · next hb =>
      rw [eq_of_beq hb, ← Option.some.inj h]
      exact ⟨_, .formFeed, rfl⟩
    split at h
    · next hb =>
      rw [eq_of_beq hb, ← Option.some.inj h]
      exact ⟨_, .newline, rfl⟩
    split at h
    · next hb =>
      rw [eq_of_beq hb, ← Option.some.inj h]
      exact ⟨_, .carriageReturn, rfl⟩
    split at h
    · next hb =>
      rw [eq_of_beq hb, ← Option.some.inj h]
      exact ⟨_, .tab, rfl⟩
    cases h
  · rintro ⟨c, letter, h⟩
    cases letter <;> exact congrArg some (List.singleton_inj.mp h)

theorem Grammar.Letter.ne_letterU {b : UInt8} {c : Char} (h : Letter b c) : b ≠ letterU := by
  cases h <;> decide

theorem pairValue_eq (lead trail : Nat) :
    pairValue lead trail = 0x10000 + (lead - 0xD800) * 0x400 + (trail - 0xDC00) := by
  rw [pairValue]
  omega

theorem isLead_iff {u : Nat} : isLead u = true ↔ 0xD800 ≤ u ∧ u ≤ 0xDBFF := by
  simp [isLead]

theorem isTrail_iff {u : Nat} : isTrail u = true ↔ 0xDC00 ≤ u ∧ u ≤ 0xDFFF := by
  simp [isTrail]

theorem unitStep_alone {u : Nat} (h : u < 0xD800 ∨ 0xDFFF < u) :
    unitStep true none u = .ok (Utf8.encodeChar (Char.ofNat u), .plain) := by
  have notTrail : ¬ isTrail u = true := by
    rw [isTrail_iff]
    omega
  have notLead : ¬ isLead u = true := by
    rw [isLead_iff]
    omega
  simp [unitStep, notTrail, notLead]

theorem unitStep_lead {u : Nat} (hl : 0xD800 ≤ u) (hh : u ≤ 0xDBFF) :
    unitStep true none u = .ok ([], .pairBackslash u) := by
  have notTrail : ¬ isTrail u = true := by
    rw [isTrail_iff]
    omega
  simp [unitStep, notTrail, isLead_iff.mpr ⟨hl, hh⟩]

theorem unitStep_trail {lead u : Nat} (hl : 0xDC00 ≤ u) (hh : u ≤ 0xDFFF) :
    unitStep true (some lead) u
      = .ok (Utf8.encodeChar (Char.ofNat (0x10000 + (lead - 0xD800) * 0x400 + (u - 0xDC00))),
        .plain) := by
  simp [unitStep, isTrail_iff.mpr ⟨hl, hh⟩, pairValue_eq]

/-- What a unit without a lead in front of it can be. -/
theorem unitStep_none_eq_ok {u : Nat} {out : Bytes} {next : StringState}
    (h : unitStep true none u = .ok (out, next)) :
    (0xD800 ≤ u ∧ u ≤ 0xDBFF ∧ out = [] ∧ next = .pairBackslash u) ∨
      ((u < 0xD800 ∨ 0xDFFF < u) ∧ out = Utf8.encodeChar (Char.ofNat u) ∧ next = .plain) := by
  by_cases surrogate : u < 0xD800 ∨ 0xDFFF < u
  · rw [unitStep_alone surrogate, Except.ok.injEq, Prod.mk.injEq] at h
    exact .inr ⟨surrogate, h.1.symm, h.2.symm⟩
  · by_cases lead : u ≤ 0xDBFF
    · rw [unitStep_lead (by omega) lead, Except.ok.injEq, Prod.mk.injEq] at h
      exact .inl ⟨by omega, lead, h.1.symm, h.2.symm⟩
    · simp [unitStep, isTrail_iff.mpr (show 0xDC00 ≤ u ∧ u ≤ 0xDFFF by omega)] at h

theorem unitStep_some_eq_ok {lead u : Nat} {out : Bytes} {next : StringState}
    (h : unitStep true (some lead) u = .ok (out, next)) :
    0xDC00 ≤ u ∧ u ≤ 0xDFFF ∧ next = .plain ∧
      out = Utf8.encodeChar (Char.ofNat (0x10000 + (lead - 0xD800) * 0x400 + (u - 0xDC00))) := by
  by_cases trail : 0xDC00 ≤ u ∧ u ≤ 0xDFFF
  · rw [unitStep_trail trail.1 trail.2, Except.ok.injEq, Prod.mk.injEq] at h
    exact ⟨trail.1, trail.2, h.2.symm, h.1.symm⟩
  · have notTrail : ¬ isTrail u = true := by rwa [isTrail_iff]
    simp [unitStep, notTrail] at h

/-- A backslash in front of what stands behind it. -/
theorem stringFrom_backslash_eq_ok_iff {n : Nat} {s all : Bytes} {c : Cursor} :
    stringFrom n .plain (Ascii.backslash :: s) = .ok (all, c) ↔
      stringFrom (n + 1) .escape s = .ok (all, c) := by
  rw [stringFrom_cons_eq_ok_iff (fun h => absurd h.2 (by decide))]
  simp [stringStep]

theorem escape_inside (b : UInt8) : ¬ (StringState.escape = .plain ∧ b = Ascii.doubleQuote) := by
  rintro ⟨h, _⟩
  cases h

theorem stringFrom_escape_unit_eq_ok_iff {n : Nat} {s all : Bytes} {c : Cursor} :
    stringFrom n .escape (letterU :: s) = .ok (all, c) ↔
      stringFrom (n + 1) (.hex none (some 0) 3) s = .ok (all, c) := by
  rw [stringFrom_cons_eq_ok_iff (by simp)]
  simp [stringStep]

/-- Behind the first half of a pair there is a backslash with a `u`. -/
theorem stringFrom_pair_eq_ok_iff {n lead : Nat} {s all : Bytes} {c : Cursor} :
    stringFrom n (.pairBackslash lead) s = .ok (all, c) ↔
      ∃ more, s = Ascii.backslash :: letterU :: more ∧
        stringFrom (n + 2) (.hex (some lead) (some 0) 3) more = .ok (all, c) := by
  rcases s with _ | ⟨x, _ | ⟨y, more⟩⟩
  · simp [stringFrom]
  · rw [stringFrom_cons_eq_ok_iff (by simp)]
    by_cases hx : x = Ascii.backslash <;> simp [stringStep, hx, stringFrom]
  · rw [stringFrom_cons_eq_ok_iff (by simp)]
    by_cases hx : x = Ascii.backslash
    · simp only [stringStep, hx, beq_self_eq_true, if_true, Except.ok.injEq, Prod.mk.injEq]
      constructor
      · rintro ⟨_, _, _, ⟨rfl, rfl⟩, h, rfl⟩
        rw [stringFrom_cons_eq_ok_iff (by simp)] at h
        obtain ⟨_, _, _, step, h, rfl⟩ := h
        by_cases hy : y = letterU
        · simp only [stringStep, hy, beq_self_eq_true, if_true, Except.ok.injEq,
            Prod.mk.injEq] at step
          obtain ⟨rfl, rfl⟩ := step
          exact ⟨more, by rw [hy], h⟩
        · simp [stringStep, hy] at step
      · rintro ⟨_, e, h⟩
        simp only [List.cons.injEq, true_and] at e
        obtain ⟨rfl, rfl⟩ := e
        refine ⟨[], _, all, ⟨rfl, rfl⟩, ?_, rfl⟩
        rw [stringFrom_cons_eq_ok_iff (by simp)]
        exact ⟨[], _, all, by simp [stringStep], h, rfl⟩
    · simp [stringStep, hx]

/-- Reading takes an escape sequence for the bytes of its character. -/
theorem stringFrom_of_escape {ch : Char} {s more : Bytes} (h : Escape ch s more) (n : Nat) :
    ∃ m, ∀ out c, stringFrom m .plain more = .ok (out, c) →
      stringFrom n .plain s = .ok (Utf8.encodeChar ch ++ out, c) := by
  cases h with
  | letter _ letter =>
    refine ⟨n + 2, fun out c h => ?_⟩
    obtain ⟨e, he⟩ : ∃ e, Utf8.encodeChar ch = [e] := by cases letter <;> exact ⟨_, rfl⟩
    have value := escapeByte?_eq_some_iff.mpr ⟨ch, letter, he⟩
    rw [stringFrom_backslash_eq_ok_iff, stringFrom_cons_eq_ok_iff (by simp)]
    exact ⟨[e], .plain, out, by simp [stringStep, letter.ne_letterU, value], h, by rw [he]⟩
  | unit quad alone =>
    refine ⟨n + 6, fun out c h => ?_⟩
    rw [stringFrom_backslash_eq_ok_iff, stringFrom_escape_unit_eq_ok_iff, stringFrom_hex_eq_ok_iff]
    exact ⟨_, _, _, _, _, quad, unitStep_alone alone, h, rfl⟩
  | pair lead leadLow leadHigh trail trailLow trailHigh =>
    refine ⟨n + 12, fun out c h => ?_⟩
    rw [stringFrom_backslash_eq_ok_iff, stringFrom_escape_unit_eq_ok_iff, stringFrom_hex_eq_ok_iff]
    refine ⟨_, _, _, _, _, lead, unitStep_lead leadLow leadHigh, ?_, (List.nil_append _).symm⟩
    rw [stringFrom_pair_eq_ok_iff]
    refine ⟨_, rfl, ?_⟩
    rw [stringFrom_hex_eq_ok_iff]
    exact ⟨_, _, _, _, _, trail, unitStep_trail trailLow trailHigh, h, rfl⟩

/-- What begins with a backslash is an escape sequence. -/
theorem escape_of_stringFrom {n : Nat} {s all : Bytes} {c : Cursor}
    (h : stringFrom n .plain (Ascii.backslash :: s) = .ok (all, c)) :
    ∃ ch more m out, Escape ch (Ascii.backslash :: s) more ∧
      stringFrom m .plain more = .ok (out, c) ∧ all = Utf8.encodeChar ch ++ out := by
  rw [stringFrom_backslash_eq_ok_iff] at h
  cases s with
  | nil => simp [stringFrom] at h
  | cons b s =>
    by_cases unit : b = letterU
    · subst unit
      rw [stringFrom_escape_unit_eq_ok_iff, stringFrom_hex_eq_ok_iff] at h
      obtain ⟨u, more, out, next, after, quad, step, h, rfl⟩ := h
      rcases unitStep_none_eq_ok step with ⟨low, high, rfl, rfl⟩ | ⟨alone, rfl, rfl⟩
      · rw [stringFrom_pair_eq_ok_iff] at h
        obtain ⟨second, rfl, h⟩ := h
        rw [stringFrom_hex_eq_ok_iff] at h
        obtain ⟨t, more, out, next, after, quad', step, h, rfl⟩ := h
        obtain ⟨trailLow, trailHigh, plain, bytes⟩ := unitStep_some_eq_ok step
        rw [plain] at h
        exact ⟨_, more, _, after, .pair quad low high quad' trailLow trailHigh, h,
          by rw [bytes, List.nil_append]⟩
      · exact ⟨_, more, _, after, .unit quad alone, h, rfl⟩
    · rw [stringFrom_cons_eq_ok_iff (escape_inside b)] at h
      obtain ⟨out, next, after, step, h, rfl⟩ := h
      rw [stringStep, if_neg (by simpa using unit)] at step
      split at step
      · next e he =>
        obtain ⟨ch, letter, bytes⟩ := escapeByte?_eq_some_iff.mp he
        rw [Except.ok.injEq, Prod.mk.injEq] at step
        obtain ⟨rfl, rfl⟩ := step
        exact ⟨ch, s, _, after, .letter s letter, h, by rw [bytes]⟩
      · cases step

/-! ### Whole strings -/

theorem stringStep_plain {b : UInt8} (strict : Bool) (h : IsPlain b) :
    stringStep strict .plain b = .ok ([b], .plain) := by
  have notControl : ¬ b < 0x20 := UInt8.not_lt.mpr h.1
  simp [stringStep, h.2.2, notControl]

/-- Plain bytes are taken as they are. -/
theorem stringFrom_plain_append {s out : Bytes} {c : Cursor} (bytes : Bytes)
    (h : ∀ b ∈ bytes, IsPlain b) (n : Nat)
    (after : stringFrom (n + bytes.length) .plain s = .ok (out, c)) :
    stringFrom n .plain (bytes ++ s) = .ok (bytes ++ out, c) := by
  induction bytes generalizing n with
  | nil => exact after
  | cons b bytes ih =>
    rw [List.forall_mem_cons] at h
    rw [List.cons_append, stringFrom_cons_eq_ok_iff (fun e => h.1.2.1 e.2)]
    refine ⟨[b], .plain, bytes ++ out, stringStep_plain true h.1, ih h.2 (n + 1) ?_, rfl⟩
    rw [List.length_cons] at after
    rwa [Nat.add_right_comm]

/-- The bytes of a spelled text are those of its encoding. -/
theorem stringFrom_of_chars {cs : List Char} {s rest : Bytes} (h : Chars cs s rest) (n : Nat) :
    ∃ m, stringFrom n .plain s = .ok (Utf8.encodeChars cs, ⟨m, rest⟩) := by
  induction h generalizing n with
  | close rest => exact ⟨n + 1, stringFrom_close n rest⟩
  | @plain c cs s rest low notQuote notBackslash _ ih =>
    obtain ⟨m, h⟩ := ih (n + (Utf8.encodeChar c).length)
    have bytes := (isPlain_encodeChar_iff c).mpr ⟨low, notQuote, notBackslash⟩
    exact ⟨m, stringFrom_plain_append _ bytes n h⟩
  | escape he _ ih =>
    obtain ⟨k, take⟩ := stringFrom_of_escape he n
    obtain ⟨m, h⟩ := ih k
    exact ⟨m, take _ _ h⟩

/-- How a string may go on between two characters. -/
theorem stringFrom_plain_cases {n : Nat} {s all : Bytes} {c : Cursor}
    (h : stringFrom n .plain s = .ok (all, c)) :
    (s = Ascii.doubleQuote :: c.rest ∧ all = []) ∨
      (∃ b more out, s = b :: more ∧ IsPlain b ∧ all = b :: out ∧
        stringFrom (n + 1) .plain more = .ok (out, c)) ∨
      ∃ ch more m out, Escape ch s more ∧ all = Utf8.encodeChar ch ++ out ∧
        stringFrom m .plain more = .ok (out, c) := by
  cases s with
  | nil => simp [stringFrom] at h
  | cons b s =>
    by_cases quote : b = Ascii.doubleQuote
    · subst quote
      rw [stringFrom_close, Except.ok.injEq, Prod.mk.injEq] at h
      obtain ⟨rfl, rfl⟩ := h
      exact .inl ⟨rfl, rfl⟩
    by_cases backslash : b = Ascii.backslash
    · subst backslash
      obtain ⟨ch, more, m, out, he, after, rfl⟩ := escape_of_stringFrom h
      exact .inr (.inr ⟨ch, more, m, out, he, rfl, after⟩)
    · rw [stringFrom_cons_eq_ok_iff (fun e => quote e.2)] at h
      obtain ⟨out, next, more, step, h, rfl⟩ := h
      by_cases control : b < 0x20
      · simp [stringStep, backslash, control] at step
      · have plain : IsPlain b := ⟨UInt8.not_lt.mp control, quote, backslash⟩
        rw [stringStep_plain true plain, Except.ok.injEq, Prod.mk.injEq] at step
        obtain ⟨rfl, rfl⟩ := step
        exact .inr (.inl ⟨b, s, more, rfl, plain, rfl, h⟩)

/-- Bytes that only continue a character come from the text itself: the bytes of an escaped
character begin otherwise. -/
theorem stringFrom_continuation {tail out : Bytes} {c : Cursor}
    (bytes : ∀ x ∈ tail, IsContinuation x) {n : Nat} {s : Bytes}
    (h : stringFrom n .plain s = .ok (tail ++ out, c)) :
    ∃ m more, s = tail ++ more ∧ stringFrom m .plain more = .ok (out, c) := by
  induction tail generalizing n s with
  | nil => exact ⟨n, s, rfl, h⟩
  | cons x tail ih =>
    rw [List.forall_mem_cons] at bytes
    rcases stringFrom_plain_cases h with ⟨_, none⟩ | ⟨b, more, out', rfl, _, e, raw⟩ |
      ⟨ch, more, m, out', _, e, _⟩
    · cases none
    · rw [List.cons_append, List.cons.injEq] at e
      obtain ⟨rfl, rfl⟩ := e
      obtain ⟨m, rest, rfl, after⟩ := ih bytes.2 raw
      exact ⟨m, rest, rfl, after⟩
    · exfalso
      have isContinuation := bytes.1
      rw [IsContinuation] at isContinuation
      rcases encodeChar_cases ch with ⟨small, eq⟩ | ⟨_, b, tail', eq, large, _⟩
      · rw [eq, List.singleton_append, List.cons_append, List.cons.injEq] at e
        rw [e.1, Utf8.toNat_byte (by omega)] at isContinuation
        omega
      · rw [eq, List.cons_append, List.cons_append, List.cons.injEq] at e
        rw [e.1] at isContinuation
        omega

/-- A string whose bytes are a text spells that text. -/
theorem chars_of_stringFrom {cs : List Char} {n : Nat} {s : Bytes} {c : Cursor}
    (h : stringFrom n .plain s = .ok (Utf8.encodeChars cs, c)) : Chars cs s c.rest := by
  induction cs generalizing n s with
  | nil =>
    rcases stringFrom_plain_cases h with ⟨rfl, _⟩ | ⟨b, _, out, _, _, e, _⟩ |
      ⟨ch, _, _, out, _, e, _⟩
    · exact .close c.rest
    · cases e
    · exact absurd (List.append_eq_nil_iff.mp e.symm).1 (encodeChar_ne_nil ch)
  | cons d cs ih =>
    rw [Utf8.encodeChars_cons] at h
    rcases stringFrom_plain_cases h with ⟨_, none⟩ | ⟨b, more, out, rfl, plain, e, raw⟩ |
      ⟨ch, more, m, out, he, e, escaped⟩
    · exact absurd (List.append_eq_nil_iff.mp none).1 (encodeChar_ne_nil d)
    · obtain ⟨tail, eq, bytes⟩ : ∃ tail, Utf8.encodeChar d = b :: tail ∧
          ∀ x ∈ tail, IsContinuation x := by
        rcases encodeChar_cases d with ⟨_, eq⟩ | ⟨_, b', tail, eq, _, bytes⟩
        · rw [eq, List.singleton_append, List.cons.injEq] at e
          exact ⟨[], by rw [eq, e.1], by simp⟩
        · rw [eq, List.cons_append, List.cons.injEq] at e
          exact ⟨tail, by rw [eq, e.1], bytes⟩
      rw [eq, List.cons_append, List.cons.injEq] at e
      obtain ⟨m, rest, rfl, after⟩ := stringFrom_continuation bytes (e.2 ▸ raw)
      have unescaped := (isPlain_encodeChar_iff d).mp <| by
        rw [eq, List.forall_mem_cons]
        exact ⟨plain, fun x hx => .of_ge (bytes x hx).1⟩
      rw [← List.cons_append, ← eq]
      exact .plain unescaped.1 unescaped.2.1 unescaped.2.2 (ih after)
    · have pieces := congrArg Utf8.pieces e
      rw [Utf8.pieces_encodeChar_append, Utf8.pieces_encodeChar_append, List.cons.injEq,
        Utf8.Piece.char.injEq] at pieces
      obtain ⟨rfl, _⟩ := pieces
      rw [List.append_cancel_left_eq] at e
      exact .escape he (ih (e ▸ escaped))

/-- A string token gives the text that it spells. -/
theorem stringToken_of_chars {t : String} {s rest : Bytes} (h : Chars t.toList s rest) (n : Nat) :
    ∃ m, stringToken ⟨n, s⟩ = .ok (t, ⟨m, rest⟩) := by
  obtain ⟨m, h⟩ := stringFrom_of_chars h n
  refine ⟨m, ?_⟩
  have decoded : Utf8.decode? (Utf8.encodeChars t.toList) = some t := Utf8.decode?_encode t
  simp [stringToken, h, decoded, bind, Except.bind]

/-- A string token that was read spells its text. -/
theorem chars_of_stringToken {t : String} {n : Nat} {s : Bytes} {c : Cursor}
    (h : stringToken ⟨n, s⟩ = .ok (t, c)) : Chars t.toList s c.rest := by
  cases hs : stringFrom n .plain s with
  | error e => simp [stringToken, hs, bind, Except.bind] at h
  | ok r =>
    obtain ⟨bytes, after⟩ := r
    cases hd : Utf8.decode? bytes with
    | none => simp [stringToken, hs, hd, bind, Except.bind] at h
    | some text =>
      simp only [stringToken, hs, hd, bind, Except.bind, Except.ok.injEq, Prod.mk.injEq] at h
      obtain ⟨rfl, rfl⟩ := h
      obtain rfl := Utf8.decode?_eq_some_iff.mp hd
      exact chars_of_stringFrom hs

end TargetQuery.Json
