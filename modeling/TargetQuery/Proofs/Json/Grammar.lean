import TargetQuery.Json.Reader
import TargetQuery.Text.Utf8

/-!
# The grammar of JSON texts

A rule of the grammar relates a text to the rest that it leaves. Nothing here reads: a value is a
tree, and the rules say which texts are written forms of it, with any white space between tokens and
any spelling of the characters of a string. The rule for strings that are not text asks for less: it
only lets one see where the string ends.
-/

namespace TargetQuery.Json

/-- A value as it is written. Members keep their order and may repeat names, and a number keeps its
token. The string `none` is one whose encoding or surrogates may be broken. -/
inductive Tree where
  | null
  | bool (b : Bool)
  | number (token : Bytes)
  | text (s : Option String)
  | list (items : List Tree)
  | object (members : List (Option String × Tree))

namespace Grammar

/-- Any amount of white space. -/
inductive Blank : Bytes → Bytes → Prop
  | nil (s : Bytes) : Blank s s
  | cons {b : UInt8} {s rest : Bytes} : isSpace b = true → Blank s rest → Blank (b :: s) rest

/-! ### Strings -/

/-- Four hexadecimal digits and their value. -/
inductive Quad : Nat → Bytes → Bytes → Prop
  | mk {a b c d : UInt8} {w x y z : Nat} (rest : Bytes) :
      Ascii.hexValue? a = some w → Ascii.hexValue? b = some x →
      Ascii.hexValue? c = some y → Ascii.hexValue? d = some z →
      Quad (((w * 16 + x) * 16 + y) * 16 + z) (a :: b :: c :: d :: rest) rest

/-- The letters that stand for a character behind a backslash. -/
inductive Letter : UInt8 → Char → Prop
  | doubleQuote : Letter Ascii.doubleQuote '"'
  | backslash : Letter Ascii.backslash '\\'
  | slash : Letter Ascii.slash '/'
  | backspace : Letter letterB (Char.ofNat 0x08)
  | formFeed : Letter letterF (Char.ofNat 0x0C)
  | newline : Letter letterN '\n'
  | carriageReturn : Letter letterR '\r'
  | tab : Letter letterT '\t'

/-- An escape sequence and its character. A surrogate counts only as half of a pair. -/
inductive Escape : Char → Bytes → Bytes → Prop
  | letter {b : UInt8} {c : Char} (rest : Bytes) : Letter b c →
      Escape c (Ascii.backslash :: b :: rest) rest
  | unit {u : Nat} {s rest : Bytes} : Quad u s rest → (u < 0xD800 ∨ 0xDFFF < u) →
      Escape (Char.ofNat u) (Ascii.backslash :: letterU :: s) rest
  | pair {lead trail : Nat} {s more rest : Bytes} :
      Quad lead s (Ascii.backslash :: letterU :: more) → 0xD800 ≤ lead → lead ≤ 0xDBFF →
      Quad trail more rest → 0xDC00 ≤ trail → trail ≤ 0xDFFF →
      Escape (Char.ofNat (0x10000 + (lead - 0xD800) * 0x400 + (trail - 0xDC00)))
        (Ascii.backslash :: letterU :: s) rest

/-- Characters, each as itself or escaped, and a closing quote. -/
inductive Chars : List Char → Bytes → Bytes → Prop
  | close (rest : Bytes) : Chars [] (Ascii.doubleQuote :: rest) rest
  | plain {c : Char} {cs : List Char} {s rest : Bytes} : 0x20 ≤ c.toNat → c ≠ '"' → c ≠ '\\' →
      Chars cs s rest → Chars (c :: cs) (Utf8.encodeChar c ++ s) rest
  | escape {c : Char} {cs : List Char} {s more rest : Bytes} : Escape c s more →
      Chars cs more rest → Chars (c :: cs) s rest

/-- What may stand before a closing quote when nobody asks for the text: bytes of any encoding, and
escape sequences whose surrogates need no other half. -/
inductive LooseChars : Bytes → Bytes → Prop
  | close (rest : Bytes) : LooseChars (Ascii.doubleQuote :: rest) rest
  | plain {b : UInt8} {s rest : Bytes} : 0x20 ≤ b → b ≠ Ascii.doubleQuote → b ≠ Ascii.backslash →
      LooseChars s rest → LooseChars (b :: s) rest
  | letter {b : UInt8} {c : Char} {s rest : Bytes} : Letter b c → LooseChars s rest →
      LooseChars (Ascii.backslash :: b :: s) rest
  | unit {u : Nat} {s more rest : Bytes} : Quad u s more → LooseChars more rest →
      LooseChars (Ascii.backslash :: letterU :: s) rest

inductive Quoted : Option String → Bytes → Bytes → Prop
  | strict {t : String} {s rest : Bytes} : Chars t.toList s rest →
      Quoted (some t) (Ascii.doubleQuote :: s) rest
  | loose {s rest : Bytes} : LooseChars s rest → Quoted none (Ascii.doubleQuote :: s) rest

/-! ### Numbers -/

inductive Digits : Bytes → Bytes → Prop
  | last {b : UInt8} (rest : Bytes) : Ascii.isDigit b = true → Digits (b :: rest) rest
  | cons {b : UInt8} {s rest : Bytes} : Ascii.isDigit b = true → Digits s rest →
      Digits (b :: s) rest

/-- The integer part: a zero, or digits that do not begin with one. -/
inductive Whole : Bytes → Bytes → Prop
  | zero (rest : Bytes) : Whole (Ascii.zero :: rest) rest
  | digits {b : UInt8} {s rest : Bytes} : b ≠ Ascii.zero → Digits (b :: s) rest →
      Whole (b :: s) rest

/-- The digits behind a point, if there is one. -/
inductive Fraction : Bytes → Bytes → Prop
  | none (s : Bytes) : Fraction s s
  | point {s rest : Bytes} : Digits s rest → Fraction (Ascii.dot :: s) rest

def IsExponentLetter (b : UInt8) : Prop := b = letterE ∨ b = capitalE

instance : DecidablePred IsExponentLetter := fun b =>
  inferInstanceAs (Decidable (b = letterE ∨ b = capitalE))

inductive Exponent : Bytes → Bytes → Prop
  | none (s : Bytes) : Exponent s s
  | plain {e : UInt8} {s rest : Bytes} : IsExponentLetter e → Digits s rest →
      Exponent (e :: s) rest
  | signed {e sign : UInt8} {s rest : Bytes} : IsExponentLetter e →
      (sign = Ascii.plus ∨ sign = Ascii.minus) → Digits s rest → Exponent (e :: sign :: s) rest

/-- A number without its sign. -/
inductive Unsigned : Bytes → Bytes → Prop
  | mk {s a b rest : Bytes} : Whole s a → Fraction a b → Exponent b rest → Unsigned s rest

inductive Number : Bytes → Bytes → Prop
  | positive {s rest : Bytes} : Unsigned s rest → Number s rest
  | negative {s rest : Bytes} : Unsigned s rest → Number (Ascii.minus :: s) rest

/-! ### Values -/

mutual

/-- A written form of a value. -/
inductive Value : Tree → Bytes → Bytes → Prop
  | null (rest : Bytes) : Value .null (letterN :: (ull ++ rest)) rest
  | yes (rest : Bytes) : Value (.bool true) (letterT :: (rue ++ rest)) rest
  | no (rest : Bytes) : Value (.bool false) (letterF :: (alse ++ rest)) rest
  | number {token : Bytes} (rest : Bytes) : Number token [] →
      Value (.number token) (token ++ rest) rest
  | text {t : Option String} {s rest : Bytes} : Quoted t s rest → Value (.text t) s rest
  | list {items : List Tree} {s rest : Bytes} : Items items s rest →
      Value (.list items) (Ascii.openBracket :: s) rest
  | object {members : List (Option String × Tree)} {s rest : Bytes} : Members members s rest →
      Value (.object members) (Ascii.openBrace :: s) rest

/-- A value with white space around it. -/
inductive Element : Tree → Bytes → Bytes → Prop
  | mk {t : Tree} {s a b rest : Bytes} : Blank s a → Value t a b → Blank b rest →
      Element t s rest

/-- The elements of a list, and the bracket that closes it. -/
inductive Items : List Tree → Bytes → Bytes → Prop
  | nil {s rest : Bytes} : Blank s (Ascii.closeBracket :: rest) → Items [] s rest
  | cons {t : Tree} {items : List Tree} {s rest : Bytes} : MoreItems (t :: items) s rest →
      Items (t :: items) s rest

/-- One element or more, with commas between them, and the bracket that closes the list. -/
inductive MoreItems : List Tree → Bytes → Bytes → Prop
  | last {t : Tree} {s rest : Bytes} : Element t s (Ascii.closeBracket :: rest) →
      MoreItems [t] s rest
  | cons {t : Tree} {items : List Tree} {s a rest : Bytes} : Element t s (Ascii.comma :: a) →
      MoreItems items a rest → MoreItems (t :: items) s rest

/-- A name, a colon and a value. -/
inductive Member : Option String × Tree → Bytes → Bytes → Prop
  | mk {name : Option String} {t : Tree} {s a b c rest : Bytes} : Blank s a → Quoted name a b →
      Blank b (Ascii.colon :: c) → Element t c rest → Member (name, t) s rest

/-- The members of an object, and the brace that closes it. -/
inductive Members : List (Option String × Tree) → Bytes → Bytes → Prop
  | nil {s rest : Bytes} : Blank s (Ascii.closeBrace :: rest) → Members [] s rest
  | cons {m : Option String × Tree} {members : List (Option String × Tree)} {s rest : Bytes} :
      MoreMembers (m :: members) s rest → Members (m :: members) s rest

/-- One member or more, with commas between them, and the brace that closes the object. -/
inductive MoreMembers : List (Option String × Tree) → Bytes → Bytes → Prop
  | last {m : Option String × Tree} {s rest : Bytes} : Member m s (Ascii.closeBrace :: rest) →
      MoreMembers [m] s rest
  | cons {m : Option String × Tree} {members : List (Option String × Tree)} {s a rest : Bytes} :
      Member m s (Ascii.comma :: a) → MoreMembers members a rest →
      MoreMembers (m :: members) s rest

end

/-- A whole text: a value, and nothing but white space around it. -/
def Document (t : Tree) (s : Bytes) : Prop := Element t s []

/-! ### A rule leaves no more than it is given -/

theorem Blank.length_le {s rest : Bytes} (h : Blank s rest) : rest.length ≤ s.length := by
  induction h with
  | nil => exact Nat.le_refl _
  | cons _ _ ih => exact Nat.le_succ_of_le ih

theorem Blank.trans {s a rest : Bytes} (h : Blank s a) (h' : Blank a rest) : Blank s rest := by
  induction h with
  | nil => exact h'
  | cons hb _ ih => exact .cons hb (ih h')

theorem Quad.length_le {u : Nat} {s rest : Bytes} (h : Quad u s rest) :
    rest.length ≤ s.length := by
  cases h with
  | mk => simp only [List.length_cons]; omega

theorem Escape.length_le {c : Char} {s rest : Bytes} (h : Escape c s rest) :
    rest.length ≤ s.length := by
  cases h with
  | letter => simp only [List.length_cons]; omega
  | unit hq _ =>
    have := hq.length_le
    simp only [List.length_cons]
    omega
  | pair hl _ _ ht _ _ =>
    have := hl.length_le
    have := ht.length_le
    simp only [List.length_cons] at *
    omega

theorem Chars.length_le {cs : List Char} {s rest : Bytes} (h : Chars cs s rest) :
    rest.length ≤ s.length := by
  induction h with
  | close => exact Nat.le_succ _
  | plain _ _ _ _ ih =>
    rw [List.length_append]
    omega
  | escape he _ ih => exact Nat.le_trans ih he.length_le

theorem LooseChars.length_le {s rest : Bytes} (h : LooseChars s rest) :
    rest.length ≤ s.length := by
  induction h with
  | close => exact Nat.le_succ _
  | plain _ _ _ _ ih => exact Nat.le_succ_of_le ih
  | letter _ _ ih => exact Nat.le_succ_of_le (Nat.le_succ_of_le ih)
  | unit hq _ ih =>
    have := hq.length_le
    simp only [List.length_cons]
    omega

theorem Quoted.length_lt {t : Option String} {s rest : Bytes} (h : Quoted t s rest) :
    rest.length < s.length := by
  cases h with
  | strict h => exact Nat.lt_succ_of_le h.length_le
  | loose h => exact Nat.lt_succ_of_le h.length_le

mutual

/-- Behind a value there is no more than there was in front of it. -/
theorem Value.length_le : ∀ {t : Tree} {s rest : Bytes}, Value t s rest →
    rest.length ≤ s.length
  | _, _, _, .null _ | _, _, _, .yes _ | _, _, _, .no _ => by
    simp only [List.length_cons, List.length_append]
    omega
  | _, _, _, .number _ _ => by
    rw [List.length_append]
    omega
  | _, _, _, .text h => Nat.le_of_lt h.length_lt
  | _, _, _, .list h => by
    have := Items.length_le h
    rw [List.length_cons]
    omega
  | _, _, _, .object h => by
    have := Members.length_le h
    rw [List.length_cons]
    omega

theorem Element.length_le : ∀ {t : Tree} {s rest : Bytes}, Element t s rest →
    rest.length ≤ s.length
  | _, _, _, .mk before h after =>
    Nat.le_trans (Nat.le_trans after.length_le (Value.length_le h)) before.length_le

/-- Every element of a list takes a byte at least: a comma or the closing bracket. -/
theorem Items.length_le : ∀ {items : List Tree} {s rest : Bytes}, Items items s rest →
    items.length + rest.length ≤ s.length
  | _, _, _, .nil h => by
    have := h.length_le
    rw [List.length_cons] at this
    rw [List.length_nil]
    omega
  | _, _, _, .cons h => MoreItems.length_le h

theorem MoreItems.length_le : ∀ {items : List Tree} {s rest : Bytes}, MoreItems items s rest →
    items.length + rest.length ≤ s.length
  | _, _, _, .last h => by
    have := Element.length_le h
    simp only [List.length_cons, List.length_nil] at *
    omega
  | _, _, _, .cons h more => by
    have := Element.length_le h
    have := MoreItems.length_le more
    simp only [List.length_cons] at *
    omega

theorem Member.length_le : ∀ {m : Option String × Tree} {s rest : Bytes}, Member m s rest →
    rest.length ≤ s.length
  | _, _, _, .mk before name colon value => by
    have := before.length_le
    have := name.length_lt
    have := colon.length_le
    have := Element.length_le value
    rw [List.length_cons] at *
    omega

theorem Members.length_le : ∀ {members : List (Option String × Tree)} {s rest : Bytes},
    Members members s rest → members.length + rest.length ≤ s.length
  | _, _, _, .nil h => by
    have := h.length_le
    rw [List.length_cons] at this
    rw [List.length_nil]
    omega
  | _, _, _, .cons h => MoreMembers.length_le h

theorem MoreMembers.length_le : ∀ {members : List (Option String × Tree)} {s rest : Bytes},
    MoreMembers members s rest → members.length + rest.length ≤ s.length
  | _, _, _, .last h => by
    have := Member.length_le h
    simp only [List.length_cons, List.length_nil] at *
    omega
  | _, _, _, .cons h more => by
    have := Member.length_le h
    have := MoreMembers.length_le more
    simp only [List.length_cons] at *
    omega

end

end Grammar

end TargetQuery.Json
