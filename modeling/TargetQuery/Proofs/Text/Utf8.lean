import Mathlib.Data.List.Basic
import TargetQuery.Text.Utf8

/-!
# Strict UTF-8

Reading cuts exactly the written characters off the front of a text, so a byte string is the
encoding of a text if and only if the strict reading gives that text, and the lossy reading gives it
as well. No broken piece is involved: what the lossy reading shows of one is not the subject here.
-/

namespace TargetQuery.Utf8

/-- Characters are the code points that are not surrogates. -/
theorem toNat_valid (c : Char) :
    c.toNat < 0xD800 ∨ 0xDFFF < c.toNat ∧ c.toNat < 0x110000 := c.valid

theorem toNat_charOfNat {n : Nat} (h : n < 0xD800 ∨ 0xDFFF < n ∧ n < 0x110000) :
    (Char.ofNat n).toNat = n := by
  have valid : n.isValidChar := h
  have small : n < UInt32.size := by
    have : UInt32.size = 4294967296 := rfl
    omega
  rw [Char.ofNat, dif_pos valid]
  rfl

theorem toNat_byte {n : Nat} (h : n < 256) : (UInt8.ofNat n).toNat = n := by
  rw [UInt8.toNat_ofNat']
  exact Nat.mod_eq_of_lt h

/-! ### One byte -/

theorem piecesFrom_last {bits low high : Nat} {b : UInt8} (rest : Bytes)
    (hl : low ≤ b.toNat) (hh : b.toNat ≤ high) :
    piecesFrom (.within bits 0 low high) (b :: rest)
      = .char (Char.ofNat (bits * 0x40 + (b.toNat - 0x80))) :: pieces rest := by
  simp [piecesFrom, step, hl, hh, pieces]

theorem piecesFrom_inner {bits k low high : Nat} {b : UInt8} (rest : Bytes)
    (hl : low ≤ b.toNat) (hh : b.toNat ≤ high) :
    piecesFrom (.within bits (k + 1) low high) (b :: rest)
      = piecesFrom (.within (bits * 0x40 + (b.toNat - 0x80)) k 0x80 0xBF) rest := by
  simp [piecesFrom, step, hl, hh]

theorem pieces_cons (b : UInt8) (rest : Bytes) :
    pieces (b :: rest) = (start b.toNat).1 ++ piecesFrom (start b.toNat).2 rest := rfl

/-- A byte that cannot continue the character leaves a broken piece in front. -/
theorem piecesFrom_within_eq_char {bits k low high : Nat} {s : Bytes} {c : Char}
    {more : List Piece} (h : piecesFrom (.within bits k low high) s = .char c :: more) :
    ∃ b rest, s = b :: rest ∧ low ≤ b.toNat ∧ b.toNat ≤ high := by
  cases s with
  | nil => simp [piecesFrom] at h
  | cons b rest =>
    by_cases fits : low ≤ b.toNat ∧ b.toNat ≤ high
    · exact ⟨b, rest, rfl, fits.1, fits.2⟩
    · have outside : (decide (low ≤ b.toNat) && decide (b.toNat ≤ high)) = false := by
        simp only [Bool.and_eq_false_iff, decide_eq_false_iff_not]
        omega
      simp [piecesFrom, step, outside] at h

/-! ### One character -/

theorem encodeChar_of_lt_80 {c : Char} (h : c.toNat < 0x80) :
    encodeChar c = [UInt8.ofNat c.toNat] := by
  simp [encodeChar, h]

theorem encodeChar_of_lt_800 {c : Char} (low : ¬ c.toNat < 0x80) (h : c.toNat < 0x800) :
    encodeChar c = [UInt8.ofNat (0xC0 + c.toNat / 0x40), UInt8.ofNat (0x80 + c.toNat % 0x40)] := by
  simp [encodeChar, low, h]

theorem encodeChar_of_lt_10000 {c : Char} (low : ¬ c.toNat < 0x800) (h : c.toNat < 0x10000) :
    encodeChar c = [UInt8.ofNat (0xE0 + c.toNat / 0x1000),
      UInt8.ofNat (0x80 + c.toNat / 0x40 % 0x40), UInt8.ofNat (0x80 + c.toNat % 0x40)] := by
  have : ¬ c.toNat < 0x80 := by omega
  simp [encodeChar, low, h, this]

theorem encodeChar_of_ge_10000 {c : Char} (low : ¬ c.toNat < 0x10000) :
    encodeChar c = [UInt8.ofNat (0xF0 + c.toNat / 0x40000),
      UInt8.ofNat (0x80 + c.toNat / 0x1000 % 0x40),
      UInt8.ofNat (0x80 + c.toNat / 0x40 % 0x40), UInt8.ofNat (0x80 + c.toNat % 0x40)] := by
  have h1 : ¬ c.toNat < 0x80 := by omega
  have h2 : ¬ c.toNat < 0x800 := by omega
  simp [encodeChar, low, h1, h2]

/-- The first byte of a character of two bytes. -/
theorem start_two {n : Nat} (hl : 0xC2 ≤ n) (hh : n < 0xE0) :
    start n = ([], .within (n - 0xC0) 0 0x80 0xBF) := by
  have h1 : ¬ n < 0x80 := by omega
  have h2 : ¬ n < 0xC2 := by omega
  simp [start, h1, h2, hh]

/-- The first byte of a character of three bytes. The range of the next byte leaves out what two
bytes can say, and the surrogates. -/
theorem start_three {n : Nat} (hl : 0xE0 ≤ n) (hh : n < 0xF0) :
    start n = ([], .within (n - 0xE0) 1 (if n = 0xE0 then 0xA0 else 0x80)
      (if n = 0xED then 0x9F else 0xBF)) := by
  have h1 : ¬ n < 0x80 := by omega
  have h2 : ¬ n < 0xC2 := by omega
  have h3 : ¬ n < 0xE0 := by omega
  by_cases e0 : n = 0xE0
  · subst e0; rfl
  · by_cases ed : n = 0xED
    · subst ed; rfl
    · simp [start, h1, h2, h3, e0, ed, hh]

/-- The first byte of a character of four bytes. The range of the next byte leaves out what three
bytes can say, and what is beyond the last character. -/
theorem start_four {n : Nat} (hl : 0xF0 ≤ n) (hh : n ≤ 0xF4) :
    start n = ([], .within (n - 0xF0) 2 (if n = 0xF0 then 0x90 else 0x80)
      (if n = 0xF4 then 0x8F else 0xBF)) := by
  have cases : n = 0xF0 ∨ n = 0xF1 ∨ n = 0xF2 ∨ n = 0xF3 ∨ n = 0xF4 := by omega
  rcases cases with rfl | rfl | rfl | rfl | rfl <;> rfl

/-- A first byte that begins no character. -/
theorem start_broken {n : Nat} (h : 0x80 ≤ n ∧ n < 0xC2 ∨ 0xF4 < n) :
    start n = ([.broken], .fresh) := by
  have h1 : ¬ n < 0x80 := by omega
  rcases h with ⟨_, h⟩ | h
  · simp [start, h1, h]
  · have h2 : ¬ n < 0xC2 := by omega
    have h3 : ¬ n < 0xE0 := by omega
    have h4 : n ≠ 0xE0 := by omega
    have h5 : n ≠ 0xED := by omega
    have h6 : ¬ n < 0xF0 := by omega
    have h7 : n ≠ 0xF0 := by omega
    have h8 : ¬ n < 0xF4 := by omega
    have h9 : n ≠ 0xF4 := by omega
    simp [start, h1, h2, h3, h4, h5, h6, h7, h8, h9]

/-- Reading cuts a written character off the front. -/
theorem pieces_encodeChar_append (c : Char) (rest : Bytes) :
    pieces (encodeChar c ++ rest) = .char c :: pieces rest := by
  have valid := toNat_valid c
  by_cases h1 : c.toNat < 0x80
  · rw [encodeChar_of_lt_80 h1, List.singleton_append, pieces_cons, toNat_byte (by omega)]
    simp [start, h1, pieces]
  by_cases h2 : c.toNat < 0x800
  · rw [encodeChar_of_lt_800 h1 h2, List.cons_append, List.singleton_append, pieces_cons,
      toNat_byte (by omega), start_two (by omega) (by omega)]
    have t := toNat_byte (n := 0x80 + c.toNat % 0x40) (by omega)
    rw [List.nil_append, piecesFrom_last rest (by omega) (by omega), t]
    have value :
        (0xC0 + c.toNat / 0x40 - 0xC0) * 0x40 + (0x80 + c.toNat % 0x40 - 0x80) = c.toNat := by
      omega
    rw [value, Char.ofNat_toNat]
  by_cases h3 : c.toNat < 0x10000
  · rw [encodeChar_of_lt_10000 h2 h3]
    simp only [List.cons_append, List.nil_append]
    rw [pieces_cons, toNat_byte (by omega), start_three (by omega) (by omega), List.nil_append]
    have t1 := toNat_byte (n := 0x80 + c.toNat / 0x40 % 0x40) (by omega)
    have t2 := toNat_byte (n := 0x80 + c.toNat % 0x40) (by omega)
    rw [piecesFrom_inner _ (by split <;> omega) (by split <;> omega),
      piecesFrom_last _ (by omega) (by omega), t1, t2]
    have value : ((0xE0 + c.toNat / 0x1000 - 0xE0) * 0x40 + (0x80 + c.toNat / 0x40 % 0x40 - 0x80))
        * 0x40 + (0x80 + c.toNat % 0x40 - 0x80) = c.toNat := by omega
    rw [value, Char.ofNat_toNat]
  · rw [encodeChar_of_ge_10000 h3]
    simp only [List.cons_append, List.nil_append]
    rw [pieces_cons, toNat_byte (by omega), start_four (by omega) (by omega), List.nil_append]
    have t1 := toNat_byte (n := 0x80 + c.toNat / 0x1000 % 0x40) (by omega)
    have t2 := toNat_byte (n := 0x80 + c.toNat / 0x40 % 0x40) (by omega)
    have t3 := toNat_byte (n := 0x80 + c.toNat % 0x40) (by omega)
    rw [piecesFrom_inner _ (by split <;> omega) (by split <;> omega),
      piecesFrom_inner _ (by omega) (by omega), piecesFrom_last _ (by omega) (by omega), t1, t2, t3]
    have value : (((0xF0 + c.toNat / 0x40000 - 0xF0) * 0x40
        + (0x80 + c.toNat / 0x1000 % 0x40 - 0x80)) * 0x40
        + (0x80 + c.toNat / 0x40 % 0x40 - 0x80)) * 0x40 + (0x80 + c.toNat % 0x40 - 0x80)
          = c.toNat := by omega
    rw [value, Char.ofNat_toNat]

/-- The bytes of the character `n` when they are known to be the given ones. -/
theorem encodeChar_eq_two {a b : UInt8} {c : Char} (hl : 0xC2 ≤ a.toNat) (hh : a.toNat < 0xE0)
    (bl : 0x80 ≤ b.toNat) (bh : b.toNat ≤ 0xBF)
    (hc : c = Char.ofNat ((a.toNat - 0xC0) * 0x40 + (b.toNat - 0x80))) :
    encodeChar c = [a, b] := by
  have value := toNat_charOfNat
    (n := (a.toNat - 0xC0) * 0x40 + (b.toNat - 0x80)) (by omega)
  rw [← hc] at value
  rw [encodeChar_of_lt_800 (by omega) (by omega)]
  have ha : 0xC0 + c.toNat / 0x40 = a.toNat := by omega
  have hb : 0x80 + c.toNat % 0x40 = b.toNat := by omega
  rw [ha, hb, UInt8.ofNat_toNat, UInt8.ofNat_toNat]

/-- Three bytes in their bounds are the bytes of one character. -/
theorem encodeChar_eq_three {a b d : UInt8} {c : Char} (hl : 0xE0 ≤ a.toNat) (hh : a.toNat < 0xF0)
    (bl : (if a.toNat = 0xE0 then 0xA0 else 0x80) ≤ b.toNat)
    (bh : b.toNat ≤ (if a.toNat = 0xED then 0x9F else 0xBF))
    (dl : 0x80 ≤ d.toNat) (dh : d.toNat ≤ 0xBF)
    (hc : c = Char.ofNat (((a.toNat - 0xE0) * 0x40 + (b.toNat - 0x80)) * 0x40 + (d.toNat - 0x80))) :
    encodeChar c = [a, b, d] := by
  have inner : 0x80 ≤ b.toNat ∧ b.toNat ≤ 0xBF := by
    split at bl <;> split at bh <;> omega
  have notShort : a.toNat = 0xE0 → 0xA0 ≤ b.toNat := by
    intro e
    rwa [if_pos e] at bl
  have notSurrogate : a.toNat = 0xED → b.toNat ≤ 0x9F := by
    intro e
    rwa [if_pos e] at bh
  have value := toNat_charOfNat
    (n := ((a.toNat - 0xE0) * 0x40 + (b.toNat - 0x80)) * 0x40 + (d.toNat - 0x80)) (by omega)
  rw [← hc] at value
  rw [encodeChar_of_lt_10000 (by omega) (by omega)]
  have ha : 0xE0 + c.toNat / 0x1000 = a.toNat := by omega
  have hb : 0x80 + c.toNat / 0x40 % 0x40 = b.toNat := by omega
  have hd : 0x80 + c.toNat % 0x40 = d.toNat := by omega
  rw [ha, hb, hd, UInt8.ofNat_toNat, UInt8.ofNat_toNat, UInt8.ofNat_toNat]

/-- Four bytes in their bounds are the bytes of one character. -/
theorem encodeChar_eq_four {a b d e : UInt8} {c : Char} (hl : 0xF0 ≤ a.toNat) (hh : a.toNat ≤ 0xF4)
    (bl : (if a.toNat = 0xF0 then 0x90 else 0x80) ≤ b.toNat)
    (bh : b.toNat ≤ (if a.toNat = 0xF4 then 0x8F else 0xBF))
    (dl : 0x80 ≤ d.toNat) (dh : d.toNat ≤ 0xBF) (el : 0x80 ≤ e.toNat) (eh : e.toNat ≤ 0xBF)
    (hc : c = Char.ofNat ((((a.toNat - 0xF0) * 0x40 + (b.toNat - 0x80)) * 0x40
      + (d.toNat - 0x80)) * 0x40 + (e.toNat - 0x80))) :
    encodeChar c = [a, b, d, e] := by
  have inner : 0x80 ≤ b.toNat ∧ b.toNat ≤ 0xBF := by
    split at bl <;> split at bh <;> omega
  have notShort : a.toNat = 0xF0 → 0x90 ≤ b.toNat := by
    intro e
    rwa [if_pos e] at bl
  have notBeyond : a.toNat = 0xF4 → b.toNat ≤ 0x8F := by
    intro e
    rwa [if_pos e] at bh
  have value := toNat_charOfNat
    (n := (((a.toNat - 0xF0) * 0x40 + (b.toNat - 0x80)) * 0x40
      + (d.toNat - 0x80)) * 0x40 + (e.toNat - 0x80)) (by omega)
  rw [← hc] at value
  rw [encodeChar_of_ge_10000 (by omega)]
  have ha : 0xF0 + c.toNat / 0x40000 = a.toNat := by omega
  have hb : 0x80 + c.toNat / 0x1000 % 0x40 = b.toNat := by omega
  have hd : 0x80 + c.toNat / 0x40 % 0x40 = d.toNat := by omega
  have he : 0x80 + c.toNat % 0x40 = e.toNat := by omega
  rw [ha, hb, hd, he, UInt8.ofNat_toNat, UInt8.ofNat_toNat, UInt8.ofNat_toNat, UInt8.ofNat_toNat]

/-- A piece that is a character was written as that character is. -/
theorem eq_encodeChar_append_of_pieces {s : Bytes} {c : Char} {more : List Piece}
    (h : pieces s = .char c :: more) : ∃ rest, s = encodeChar c ++ rest ∧ pieces rest = more := by
  cases s with
  | nil => simp [pieces, piecesFrom] at h
  | cons a s =>
    rw [pieces_cons] at h
    by_cases h1 : a.toNat < 0x80
    · simp only [start, h1, if_true, List.singleton_append, List.cons.injEq, Piece.char.injEq] at h
      obtain ⟨rfl, hmore⟩ := h
      have value := toNat_charOfNat (n := a.toNat) (by omega)
      refine ⟨s, ?_, hmore⟩
      rw [encodeChar_of_lt_80 (by omega), value, UInt8.ofNat_toNat, List.singleton_append]
    by_cases h2 : a.toNat < 0xC2 ∨ 0xF4 < a.toNat
    · rw [start_broken (by omega)] at h
      simp at h
    by_cases h3 : a.toNat < 0xE0
    · rw [start_two (by omega) h3, List.nil_append] at h
      obtain ⟨b, rest, rfl, bl, bh⟩ := piecesFrom_within_eq_char h
      rw [piecesFrom_last rest bl bh, List.cons.injEq, Piece.char.injEq] at h
      have bytes := encodeChar_eq_two (by omega) h3 bl bh h.1.symm
      exact ⟨rest, by rw [bytes]; rfl, h.2⟩
    by_cases h4 : a.toNat < 0xF0
    · rw [start_three (by omega) h4, List.nil_append] at h
      obtain ⟨b, s, rfl, bl, bh⟩ := piecesFrom_within_eq_char h
      rw [piecesFrom_inner s bl bh] at h
      obtain ⟨d, rest, rfl, dl, dh⟩ := piecesFrom_within_eq_char h
      rw [piecesFrom_last rest dl dh, List.cons.injEq, Piece.char.injEq] at h
      have bytes := encodeChar_eq_three (by omega) h4 bl bh dl dh h.1.symm
      exact ⟨rest, by rw [bytes]; rfl, h.2⟩
    · rw [start_four (by omega) (by omega), List.nil_append] at h
      obtain ⟨b, s, rfl, bl, bh⟩ := piecesFrom_within_eq_char h
      rw [piecesFrom_inner s bl bh] at h
      obtain ⟨d, s, rfl, dl, dh⟩ := piecesFrom_within_eq_char h
      rw [piecesFrom_inner s dl dh] at h
      obtain ⟨e, rest, rfl, el, eh⟩ := piecesFrom_within_eq_char h
      rw [piecesFrom_last rest el eh, List.cons.injEq, Piece.char.injEq] at h
      have bytes := encodeChar_eq_four (by omega) (by omega) bl bh dl dh el eh h.1.symm
      exact ⟨rest, by rw [bytes]; rfl, h.2⟩

/-! ### Texts -/

@[simp] theorem pieces_nil : pieces [] = [] := rfl

theorem piecesFrom_within_ne_nil (bits k low high : Nat) (s : Bytes) :
    piecesFrom (.within bits k low high) s ≠ [] := by
  induction s generalizing bits k low high with
  | nil => simp [piecesFrom]
  | cons b rest ih =>
    by_cases fits : low ≤ b.toNat ∧ b.toNat ≤ high
    · cases k with
      | zero => simp [piecesFrom_last rest fits.1 fits.2]
      | succ k =>
        rw [piecesFrom_inner rest fits.1 fits.2]
        exact ih _ _ _ _
    · have outside : (decide (low ≤ b.toNat) && decide (b.toNat ≤ high)) = false := by
        simp only [Bool.and_eq_false_iff, decide_eq_false_iff_not]
        omega
      simp [piecesFrom, step, outside]

theorem eq_nil_of_pieces {s : Bytes} (h : pieces s = []) : s = [] := by
  cases s with
  | nil => rfl
  | cons a s =>
    rw [pieces_cons, List.append_eq_nil_iff] at h
    obtain ⟨none, more⟩ := h
    cases hp : (start a.toNat).2 with
    | fresh =>
      have stays : (start a.toNat).1 ≠ [] := by
        intro _
        by_cases h1 : a.toNat < 0x80
        · simp [start, h1] at none
        by_cases h2 : a.toNat < 0xC2 ∨ 0xF4 < a.toNat
        · simp [start_broken (n := a.toNat) (by omega)] at none
        by_cases h3 : a.toNat < 0xE0
        · simp [start_two (n := a.toNat) (by omega) h3] at hp
        by_cases h4 : a.toNat < 0xF0
        · simp [start_three (n := a.toNat) (by omega) h4] at hp
        · simp [start_four (n := a.toNat) (by omega) (by omega)] at hp
      exact absurd none stays
    | within bits k low high =>
      rw [hp] at more
      exact absurd more (piecesFrom_within_ne_nil bits k low high s)

@[simp] theorem encodeChars_nil : encodeChars [] = [] := rfl

@[simp] theorem encodeChars_cons (c : Char) (cs : List Char) :
    encodeChars (c :: cs) = encodeChar c ++ encodeChars cs := rfl

@[simp] theorem encodeChars_append (cs ds : List Char) :
    encodeChars (cs ++ ds) = encodeChars cs ++ encodeChars ds := List.flatMap_append

theorem encode_append (s t : String) : encode (s ++ t) = encode s ++ encode t := by
  rw [encode, String.toList_append, encodeChars_append]
  rfl

theorem pieces_encodeChars_append (cs : List Char) (rest : Bytes) :
    pieces (encodeChars cs ++ rest) = cs.map .char ++ pieces rest := by
  induction cs with
  | nil => rfl
  | cons c cs ih =>
    rw [encodeChars_cons, List.append_assoc, pieces_encodeChar_append, ih]
    rfl

/-- The pieces are whole characters if and only if the bytes are their encoding. -/
theorem pieces_eq_map_char_iff {s : Bytes} {cs : List Char} :
    pieces s = cs.map .char ↔ s = encodeChars cs := by
  constructor
  · intro h
    induction cs generalizing s with
    | nil => exact eq_nil_of_pieces h
    | cons c cs ih =>
      obtain ⟨rest, rfl, hrest⟩ := eq_encodeChar_append_of_pieces h
      rw [ih hrest, encodeChars_cons]
  · rintro rfl
    simpa using pieces_encodeChars_append cs []

theorem mapM_char?_eq_some_iff {ps : List Piece} {cs : List Char} :
    ps.mapM Piece.char? = some cs ↔ ps = cs.map .char := by
  induction ps generalizing cs with
  | nil => cases cs <;> simp
  | cons p ps ih =>
    cases p with
    | broken => cases cs <;> simp [Piece.char?]
    | char c =>
      cases cs with
      | nil => simp [Piece.char?, Option.bind_eq_some_iff]
      | cons d ds => simp [Piece.char?, Option.bind_eq_some_iff, ih, and_comm]

/-- The strict reading gives the text whose encoding the bytes are. -/
theorem decode?_eq_some_iff {s : Bytes} {t : String} : decode? s = some t ↔ s = encode t := by
  simp only [decode?, Option.map_eq_some_iff, mapM_char?_eq_some_iff, pieces_eq_map_char_iff]
  constructor
  · rintro ⟨cs, rfl, rfl⟩
    rw [encode, String.toList_ofList]
  · rintro rfl
    exact ⟨t.toList, rfl, String.ofList_toList⟩

@[simp] theorem decode?_encode (t : String) : decode? (encode t) = some t :=
  decode?_eq_some_iff.mpr rfl

theorem encode_injective : Function.Injective encode := by
  intro s t h
  have read := decode?_encode s
  rw [h, decode?_encode, Option.some.injEq] at read
  exact read.symm

/-- Nothing is lost of a text that was encoded. -/
@[simp] theorem lossy_encode (t : String) : lossy (encode t) = t := by
  have whole : pieces (encode t) = t.toList.map .char := pieces_eq_map_char_iff.mpr rfl
  have kept : (fun p : Piece => p.char?.getD '\uFFFD') ∘ Piece.char = id := rfl
  rw [lossy, whole, List.map_map, kept, List.map_id, String.ofList_toList]

end TargetQuery.Utf8
