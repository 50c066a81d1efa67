import Mathlib.Data.List.Basic
import TargetQuery.Toml.Text

/-!
# Strings that are read back

The text between the quotes of a string is a row of units, each of which stands for one character,
with short runs of quotes before, between and behind them. A row is read as the characters it stands
for, and every form in which a text is written is such a row.
-/

namespace TargetQuery.Toml

variable {f : Form} {c : Char}

/-! ### Rows of units -/

/-- Text in front of what an optional reading gives. -/
def prepend (text : List Char) (r : Option (List Char × List Char)) :
    Option (List Char × List Char) :=
  r.map fun r => (text ++ r.1, r.2)

theorem prepend_prepend (s t : List Char) (r : Option (List Char × List Char)) :
    prepend s (prepend t r) = prepend (s ++ t) r := by
  cases r with
  | none => rfl
  | some r => simp [prepend]

/-- A piece of written text that stands for one character, wherever it stands, and does not begin
with a quote. -/
structure IsUnit (f : Form) (piece : List Char) (c : Char) : Prop where
  unquoted : ∀ rest, (piece ++ rest).head? ≠ some f.mark
  reads : ∀ rest, f.readFrom .clear (piece ++ rest) = prepend [c] (f.readFrom .clear rest)

/-- The greatest number of quotes that may stand together within a string. -/
def Form.runLimit (f : Form) : Nat := if f.isMulti then 2 else 0

/-- What is written between the delimiters of a string, and the text it stands for. -/
inductive Spells (f : Form) : List Char → List Char → Prop
  | quotes {run : Nat} (short : run ≤ f.runLimit) :
    Spells f (List.replicate run f.mark) (List.replicate run f.mark)
  | unit {run : Nat} (short : run ≤ f.runLimit) {piece written text : List Char} {c : Char}
    (isUnit : IsUnit f piece c) (more : Spells f written text) :
    Spells f (List.replicate run f.mark ++ (piece ++ written))
      (List.replicate run f.mark ++ c :: text)

theorem readFrom_cons_go {pending next : Pending} {rest text : List Char}
    (step : f.step pending c rest = .go text next) :
    f.readFrom pending (c :: rest) = prepend text (f.readFrom next rest) := by
  cases read : f.readFrom next rest with
  | none => simp [Form.readFrom, step, read, prepend]
  | some r => simp [Form.readFrom, step, read, prepend]

theorem runLength_replicate_append {mark : Char} (n : Nat) {rest : List Char}
    (other : rest.head? ≠ some mark) : runLength mark (List.replicate n mark ++ rest) = n := by
  have stops : rest.takeWhile (· == mark) = [] := by
    cases rest with
    | nil => rfl
    | cons d rest => simpa [List.takeWhile_cons] using other
  rw [runLength, List.takeWhile_append_of_pos (by simp)]
  simp [stops]

/-- Few quotes with something else behind them belong to the text. -/
theorem readFrom_replicate {run : Nat} (short : run ≤ f.runLimit) {rest : List Char}
    (other : rest.head? ≠ some f.mark) :
    f.readFrom .clear (List.replicate run f.mark ++ rest)
      = prepend (List.replicate run f.mark) (f.readFrom .clear rest) := by
  induction run with
  | zero =>
    cases h : f.readFrom .clear rest <;> simp [prepend, h]
  | succ run ih =>
    have multi : f.isMulti = true := by
      by_contra single
      simp [Form.runLimit, single] at short
    have limit : f.runLimit = 2 := by simp [Form.runLimit, multi]
    have step : f.step .clear f.mark (List.replicate run f.mark ++ rest) = .go [f.mark] .clear := by
      have fits : 1 + run < 3 := by omega
      simp [Form.step, Form.clearStep, multi, runLength_replicate_append run other, fits]
    rw [List.replicate_succ, List.cons_append, readFrom_cons_go step, ih (by omega),
      prepend_prepend]
    rfl

/-- The quotes that end a string end it, and those in front of them belong to the text. -/
theorem readFrom_close {run : Nat} (short : run ≤ f.runLimit) {rest : List Char}
    (other : rest.head? ≠ some f.mark) :
    f.readFrom .clear (List.replicate run f.mark ++ (f.delimiter ++ rest))
      = some (List.replicate run f.mark, rest) := by
  cases multi : f.isMulti with
  | false =>
    have none : run = 0 := by simpa [Form.runLimit, multi] using short
    subst none
    have close : f.step .clear f.mark rest = .close 1 := by
      simp [Form.step, Form.clearStep, multi]
    simp [Form.delimiter, multi, Form.readFrom, close]
  | true =>
    have limit : run ≤ 2 := by simpa [Form.runLimit, multi] using short
    have quotes : List.replicate run f.mark ++ (f.delimiter ++ rest)
        = f.mark :: (List.replicate (run + 2) f.mark ++ rest) := by
      rw [Form.delimiter, multi, if_pos rfl, ← List.append_assoc, List.replicate_append_replicate,
        ← List.cons_append, ← List.replicate_succ]
    have close : f.step .clear f.mark (List.replicate (run + 2) f.mark ++ rest)
        = .close (run + 3) := by
      have long : ¬ 1 + (run + 2) < 3 := by omega
      have all : min (1 + (run + 2)) 5 = run + 3 := by omega
      simp [Form.step, Form.clearStep, multi, runLength_replicate_append (run + 2) other, long, all]
    rw [quotes, Form.readFrom, close]
    simp

/-- A row is read as the text it stands for. -/
theorem Spells.read {written text : List Char} (h : Spells f written text) {rest : List Char}
    (other : rest.head? ≠ some f.mark) :
    f.readFrom .clear (written ++ (f.delimiter ++ rest)) = some (text, rest) := by
  induction h with
  | quotes short => exact readFrom_close short other
  | unit short isUnit more ih =>
    rw [List.append_assoc, List.append_assoc, readFrom_replicate short (isUnit.unquoted _),
      isUnit.reads, ih, prepend_prepend]
    simp [prepend]

/-! ### Units -/

/-- A character that does not steer the reader stands for itself. -/
theorem isUnit_self (notMark : c ≠ f.mark) (notEscape : c = '\\' → f.escapes = false)
    (visible : c = '\n' ∧ f.isMulti = true ∨ isControl c = false) : IsUnit f [c] c where
  unquoted rest := by simpa using notMark
  reads rest := by
    refine readFrom_cons_go ?_
    have unescaped : (c == '\\' && f.escapes) = false := by
      by_cases backslash : c = '\\'
      · simp [notEscape backslash]
      · simp [backslash]
    obtain ⟨rfl, multi⟩ | visible := visible
    · simp [Form.step, Form.clearStep, notMark, multi]
    · have notReturn : c ≠ '\r' := by
        rintro rfl
        exact absurd visible (by decide)
      simp only [Form.step, Form.clearStep, beq_eq_false_iff_ne.mpr notMark, unescaped,
        beq_eq_false_iff_ne.mpr notReturn, visible, Bool.false_and, Bool.false_eq_true, if_false,
        ite_self]

theorem mark_of_escapes (escapes : f.escapes = true) : f.mark = '"' := by
  cases f <;> first | rfl | cases escapes

theorem readFrom_backslash (escapes : f.escapes = true) (rest : List Char) :
    f.readFrom .clear ('\\' :: rest) = prepend [] (f.readFrom .backslash rest) := by
  refine readFrom_cons_go ?_
  simp [Form.step, Form.clearStep, mark_of_escapes escapes, escapes]

/-- A backslash with a letter stands for a character. -/
theorem isUnit_short (escapes : f.escapes = true) {letter : Char} (notShort : letter ≠ 'u')
    (notLong : letter ≠ 'U') (short : shortEscape? letter = some c) :
    IsUnit f ['\\', letter] c where
  unquoted rest := by simp [mark_of_escapes escapes]
  reads rest := by
    have step : f.step .backslash letter rest = .go [c] .clear := by
      simp [Form.step, Form.escapeStep, notShort, notLong, short]
    rw [List.cons_append, List.singleton_append, readFrom_backslash escapes, readFrom_cons_go step,
      prepend_prepend]
    rfl

/-- The digits of a control character and their values. -/
theorem upperQuad_digits : ∀ n < 0x80, (upperQuad n).map hexDigit?
    = [some 0, some 0, some (n / 16), some (n % 16)] := by
  decide

/-- A control character may be written by its number. -/
theorem isUnit_number (escapes : f.escapes = true) (ascii : c.toNat < 0x80) :
    IsUnit f ('\\' :: 'u' :: upperQuad c.toNat) c where
  unquoted rest := by simp [mark_of_escapes escapes]
  reads rest := by
    have digits := upperQuad_digits c.toNat ascii
    obtain ⟨p, s, quad, hp, digits⟩ := List.map_eq_cons_iff.mp digits
    obtain ⟨q, s, rfl, hq, digits⟩ := List.map_eq_cons_iff.mp digits
    obtain ⟨r, s, rfl, hr, digits⟩ := List.map_eq_cons_iff.mp digits
    obtain ⟨d, s, rfl, hd, digits⟩ := List.map_eq_cons_iff.mp digits
    rw [quad, List.map_eq_nil_iff.mp digits]
    have letter : ∀ rest, f.step .backslash 'u' rest = .go [] (.number 3 0) := fun _ => rfl
    have digit : ∀ {d v : Nat} {more value : Nat} {e : Char} (rest : List Char),
        hexDigit? e = some d → value * 16 + d = v →
          f.step (.number (more + 1) value) e rest = .go [] (.number more v) := by
      rintro d v more value e rest he rfl
      simp [Form.step, he]
    have number : c.toNat / 16 * 16 + c.toNat % 16 = c.toNat := by omega
    have last : f.step (.number 0 (c.toNat / 16)) d rest = .go [c] .clear := by
      simp only [Form.step, hd, number, charOfNumber?, show c.toNat.isValidChar from c.valid,
        if_true, Char.ofNat_toNat]
    simp only [List.cons_append, List.nil_append]
    rw [readFrom_backslash escapes, readFrom_cons_go (letter _),
      readFrom_cons_go (digit _ hp rfl), readFrom_cons_go (digit _ hq rfl),
      readFrom_cons_go (digit _ hr rfl)]
    simp only [Nat.zero_mul, Nat.zero_add]
    rw [readFrom_cons_go last]
    simp only [prepend_prepend, List.nil_append]

theorem toNat_lt_of_isControl (h : isControl c = true) : c.toNat < 0x80 := by
  simp only [isControl, Bool.or_eq_true, Bool.and_eq_true, decide_eq_true_eq, beq_iff_eq] at h
  omega

/-- What is written for a character that has an escape is read as that character. -/
theorem isUnit_of_escapeOf? {multi : Bool} (escapes : f.escapes = true) {piece : List Char}
    (h : escapeOf? multi c = some piece) : IsUnit f piece c := by
  have letter : ∀ {d : Char} {e : Char}, shortEscape? d = some e → d ≠ 'u' → d ≠ 'U' →
      some ['\\', d] = some piece → c = e → IsUnit f piece c := by
    rintro d e short notShort notLong h rfl
    rw [← Option.some.inj h]
    exact isUnit_short escapes notShort notLong short
  rw [escapeOf?] at h
  split at h
  · next e => exact letter (by decide) (by decide) (by decide) h (eq_of_beq e)
  split at h
  · next e => exact letter (by decide) (by decide) (by decide) h (eq_of_beq e)
  split at h
  · next e =>
    split at h
    · cases h
    · exact letter (by decide) (by decide) (by decide) h (eq_of_beq e)
  split at h
  · next e => exact letter (by decide) (by decide) (by decide) h (eq_of_beq e)
  split at h
  · next e => exact letter (by decide) (by decide) (by decide) h (eq_of_beq e)
  split at h
  · next e => exact letter (by decide) (by decide) (by decide) h (eq_of_beq e)
  split at h
  · next control =>
    rw [← Option.some.inj h]
    exact isUnit_number escapes (toNat_lt_of_isControl control)
  · cases h

/-- What is not escaped stands for itself. -/
theorem isUnit_of_not_escapeOf? (escapes : f.escapes = true) (notMark : c ≠ '"')
    (h : escapeOf? f.isMulti c = none) : IsUnit f [c] c := by
  rw [← mark_of_escapes escapes] at notMark
  rw [escapeOf?] at h
  split at h
  · cases h
  split at h
  · cases h
  split at h
  · next newline =>
    split at h
    · next multi =>
      obtain rfl := eq_of_beq newline
      exact isUnit_self notMark (fun h => absurd h (by decide)) (.inl ⟨rfl, multi⟩)
    · cases h
  split at h
  · cases h
  split at h
  · cases h
  split at h
  · cases h
  split at h
  · cases h
  · next notBackslash visible =>
    refine isUnit_self notMark (fun backslash => ?_) (.inr (by simpa using visible))
    simp [backslash] at notBackslash

/-! ### Texts -/

/-- With escapes, quotes that stand together are parted before they are too many. -/
theorem spells_escapeFrom (escapes : f.escapes = true) {run : Nat} (short : run ≤ f.runLimit)
    (s : List Char) : Spells f (List.replicate run f.mark ++ escapeFrom f.isMulti run s)
      (List.replicate run f.mark ++ s) := by
  have mark := mark_of_escapes escapes
  induction s generalizing run with
  | nil => simpa [escapeFrom] using Spells.quotes short
  | cons c s ih =>
    rw [escapeFrom, ← Form.runLimit]
    split
    · next quote =>
      obtain rfl : c = f.mark := (eq_of_beq quote).trans mark.symm
      by_cases fits : run < f.runLimit
      · have longer := @ih (run + 1) fits
        rw [List.replicate_succ', List.append_assoc, List.append_assoc] at longer
        rw [if_pos fits, ← mark]
        exact longer
      · rw [if_neg fits]
        have escaped : IsUnit f ['\\', '"'] f.mark :=
          isUnit_short escapes (by decide) (by decide) (by rw [mark]; rfl)
        exact .unit short escaped (ih (Nat.zero_le _))
    · next other =>
      have notMark : c ≠ '"' := by simpa using other
      split
      · next piece escape =>
        exact .unit short (isUnit_of_escapeOf? escapes escape) (ih (Nat.zero_le _))
      · next plain =>
        exact .unit short (isUnit_of_not_escapeOf? escapes notMark plain) (ih (Nat.zero_le _))

/-- Without escapes a text must be visible, and its quotes must not be too many. -/
theorem spells_self {run : Nat} {s : List Char} (short : longestRun f.mark run s ≤ f.runLimit)
    (literal : f.escapes = false)
    (visible : ∀ c ∈ s, c = '\n' ∧ f.isMulti = true ∨ isControl c = false) :
    Spells f (List.replicate run f.mark ++ s) (List.replicate run f.mark ++ s) := by
  induction s generalizing run with
  | nil =>
    rw [List.append_nil]
    exact .quotes short
  | cons c s ih =>
    rw [List.forall_mem_cons] at visible
    rw [longestRun] at short
    split at short
    · next quote =>
      obtain rfl := eq_of_beq quote
      have longer := ih short visible.2
      rw [List.replicate_succ', List.append_assoc] at longer
      exact longer
    · next other =>
      obtain ⟨shortRun, shortRest⟩ := Nat.max_le.mp short
      have notMark : c ≠ f.mark := by simpa using other
      exact .unit shortRun (isUnit_self notMark (fun _ => literal) visible.1)
        (ih shortRest visible.2)

/-- What is written between the delimiters. -/
def Form.body (f : Form) (s : List Char) : List Char :=
  if f.escapes then escapeFrom f.isMulti 0 s else s

/-- A form without escapes is only chosen for a text that needs none. -/
theorem fits_of_choose {s : List Char} (h : Form.choose s = f) (literal : f.escapes = false) :
    longestRun f.mark 0 s ≤ f.runLimit ∧
      ∀ c ∈ s, c = '\n' ∧ f.isMulti = true ∨ isControl c = false := by
  have visible : (s.any fun c => isControl c && c != '\n') = false →
      ∀ c ∈ s, c ≠ '\n' → isControl c = false := by
    intro codes c hc other
    simpa [other] using List.any_eq_false.mp codes c hc
  rw [Form.choose] at h
  split at h
  · subst h
    cases literal
  split at h
  · next fits =>
    subst h
    simp only [Bool.and_eq_true, Bool.not_eq_true', beq_iff_eq] at fits
    obtain ⟨⟨codes, singles⟩, newline⟩ := fits
    refine ⟨Nat.le_of_eq singles, fun c hc => .inr (visible codes c hc ?_)⟩
    rintro rfl
    simp [hc] at newline
  split at h
  · subst h
    cases literal
  split at h
  · next fits =>
    subst h
    simp only [Bool.and_eq_true, Bool.not_eq_true', decide_eq_true_eq] at fits
    refine ⟨fits.2, fun c hc => ?_⟩
    by_cases newline : c = '\n'
    · exact .inl ⟨newline, rfl⟩
    · exact .inr (visible fits.1 c hc newline)
  split at h
  · subst h
    cases literal
  · subst h
    cases literal

theorem spells_body (s : List Char) : Spells (Form.choose s) ((Form.choose s).body s) s := by
  rw [Form.body]
  split
  · next escapes => exact spells_escapeFrom escapes (Nat.zero_le _) s
  · next literal =>
    obtain ⟨short, visible⟩ := fits_of_choose rfl (Bool.eq_false_iff.mpr literal)
    exact spells_self short (Bool.eq_false_iff.mpr literal) visible

/-! ### Delimiters -/

variable {s rest : List Char}

/-- A line end at the start of what is read is the start of the text. -/
theorem dropLineEnd_of_read (multi : f.isMulti = true) {written : List Char}
    (read : f.readFrom .clear written = some (s, rest)) (oneLine : '\n' ∉ s) :
    dropLineEnd written = written := by
  have notMark : '\n' ≠ f.mark ∧ '\r' ≠ f.mark := by cases f <;> decide
  have newline : ∀ t, prepend ['\n'] (f.readFrom .clear t) ≠ some (s, rest) := by
    intro t h
    obtain ⟨r, -, h⟩ := Option.map_eq_some_iff.mp h
    rw [← (Prod.mk.inj h).1] at oneLine
    simp at oneLine
  rw [dropLineEnd.eq_def]
  split
  · next t =>
    have step : f.step .clear '\n' t = .go ['\n'] .clear := by
      simp [Form.step, Form.clearStep, notMark.1, multi]
    rw [readFrom_cons_go step] at read
    exact absurd read (newline t)
  · next t =>
    have first : f.step .clear '\r' ('\n' :: t) = .go [] (.carriageReturn true) := by
      simp [Form.step, Form.clearStep, notMark.2, multi]
    have second : f.step (.carriageReturn true) '\n' t = .go ['\n'] .clear := rfl
    rw [readFrom_cons_go first, readFrom_cons_go second, prepend_prepend] at read
    exact absurd read (newline t)
  · rfl

/-- Three quotes in a row do not begin a string of one line. -/
theorem readText_single (single : f.isMulti = false) (other : rest.head? ≠ some f.mark)
    {written : List Char} (read : f.readFrom .clear written = some (s, rest)) :
    readText (f.mark :: written) = some (s, rest) := by
  have notTripled : ∀ t, written ≠ f.mark :: f.mark :: t := by
    rintro t rfl
    have close : f.step .clear f.mark (f.mark :: t) = .close 1 := by
      simp [Form.step, Form.clearStep, single]
    rw [Form.readFrom, close] at read
    obtain ⟨-, rfl⟩ := Prod.mk.inj (Option.some.inj read)
    exact other rfl
  cases f with
  | basic =>
    change readText ('"' :: written) = _
    rw [readText, readSingle]
    · exact read
    · exact fun t h => notTripled t (List.cons.inj h).2
    · intro t h
      cases h
  | literal =>
    change readText ('\'' :: written) = _
    rw [readText, readSingle]
    · exact read
    · intro t h
      cases h
    · exact fun t h => notTripled t (List.cons.inj h).2
  | multiBasic => cases single
  | multiLiteral => cases single

/-- Whatever form is chosen for a text, the text is read back, and the reader stops where it ends.
-/
theorem readText_quote (s : List Char) (double : rest.head? ≠ some '"')
    (single : rest.head? ≠ some '\'') : readText (quote s ++ rest) = some (s, rest) := by
  have spells := spells_body s
  rw [quote]
  generalize Form.choose s = f at spells
  have other : rest.head? ≠ some f.mark := by cases f <;> assumption
  have read := spells.read other
  rw [Form.body] at read
  rw [Form.render]
  cases multi : f.isMulti with
  | false =>
    simp only [Form.delimiter, multi, Bool.false_and, Bool.false_eq_true, if_false,
      List.append_nil, List.replicate_one, List.append_assoc, List.singleton_append] at read ⊢
    exact readText_single multi other read
  | true =>
    have tripled : ∀ t, readText (f.delimiter ++ t) = f.readFrom .clear (dropLineEnd t) := by
      intro t
      cases f with
      | basic => cases multi
      | literal => cases multi
      | multiBasic => rfl
      | multiLiteral => rfl
    simp only [List.append_assoc, tripled, Bool.true_and]
    rw [multi] at read
    by_cases newline : s.contains '\n' = true
    · rw [if_pos newline]
      exact read
    · rw [if_neg newline, List.nil_append, dropLineEnd_of_read multi read (by simpa using newline)]
      exact read

end TargetQuery.Toml
