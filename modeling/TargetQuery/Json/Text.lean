import TargetQuery.Json.Reader
import TargetQuery.Text.Utf8

/-!
# String tokens

The part of a string between its quotes is read by a machine that takes one byte at a time. A strict
reading resolves the escapes, wants surrogates in pairs and wants the result to be UTF-8; a lax one
only finds the end of the string.
-/

namespace TargetQuery.Json

/-- Where in a string the next byte stands. -/
inductive StringState where
  /-- Between two characters. -/
  | plain
  /-- Behind a backslash. -/
  | escape
  /-- Among four hexadecimal digits: the leading surrogate before them if there is one, the value so
  far unless a digit was bad, and how many digits come after the next one. -/
  | hex (lead : Option Nat) (value : Option Nat) (after : Nat)
  /-- Behind a leading surrogate: the backslash of the trailing one must follow. -/
  | pairBackslash (lead : Nat)
  /-- Behind a leading surrogate and a backslash. -/
  | pairLetter (lead : Nat)
deriving DecidableEq, Repr

/-- The byte that a one-letter escape stands for. -/
def escapeByte? (b : UInt8) : Option UInt8 :=
  if b == Ascii.doubleQuote || b == Ascii.backslash || b == Ascii.slash then some b
  else if b == letterB then some Ascii.backspace
  else if b == letterF then some Ascii.formFeed
  else if b == letterN then some Ascii.newline
  else if b == letterR then some Ascii.carriageReturn
  else if b == letterT then some Ascii.tab
  else none

/-- The leading halves of surrogate pairs. -/
def isLead (n : Nat) : Bool := 0xD800 ≤ n && n ≤ 0xDBFF

/-- The trailing halves of surrogate pairs. -/
def isTrail (n : Nat) : Bool := 0xDC00 ≤ n && n ≤ 0xDFFF

/-- The code point of a surrogate pair. -/
def pairValue (lead trail : Nat) : Nat := (lead - 0xD800) * 0x400 + (trail - 0xDC00) + 0x10000

/-- What four hexadecimal digits amount to, behind a leading surrogate or not. -/
def unitStep (strict : Bool) (lead : Option Nat) (u : Nat) : Except Fault (Bytes × StringState) :=
  match lead with
  | some l =>
    if isTrail u then .ok (Utf8.encodeChar (Char.ofNat (pairValue l u)), .plain)
    else .error .loneSurrogate
  | none =>
    if !strict then .ok ([], .plain)
    else if isTrail u then .error .loneSurrogate
    else if isLead u then .ok ([], .pairBackslash u)
    else .ok (Utf8.encodeChar (Char.ofNat u), .plain)

/-- The bytes that one more byte of a string completes, and where it leads. -/
def stringStep (strict : Bool) : StringState → UInt8 → Except Fault (Bytes × StringState)
  | .plain, b =>
    if b == Ascii.backslash then .ok ([], .escape)
    else if b < 0x20 then .error .controlCharacter
    else .ok ([b], .plain)
  | .escape, b =>
    if b == letterU then .ok ([], .hex none (some 0) 3)
    else match escapeByte? b with
      | some e => .ok ([e], .plain)
      | none => .error .badEscape
  | .hex lead value after, b =>
    let value := match value, Ascii.hexValue? b with
      | some v, some d => some (v * 16 + d)
      | _, _ => none
    match after with
    | k + 1 => .ok ([], .hex lead value k)
    | 0 => match value with
      | some u => unitStep strict lead u
      | none => .error .badEscape
  | .pairBackslash lead, b =>
    if b == Ascii.backslash then .ok ([], .pairLetter lead) else .error .halfPair
  | .pairLetter lead, b =>
    if b == letterU then .ok ([], .hex (some lead) (some 0) 3) else .error .halfPair

/-- The content of a string from the given state on, and the cursor behind its closing quote. -/
def stringFrom (n : Nat) : StringState → Bytes → Except Error (Bytes × Cursor)
  | _, [] => .error ⟨.fault .endInString, n⟩
  | st, b :: rest =>
    if st = .plain ∧ b = Ascii.doubleQuote then .ok ([], ⟨n + 1, rest⟩)
    else match stringStep true st b with
      | .error f => .error ⟨.fault f, n + 1⟩
      | .ok (out, st) => (stringFrom (n + 1) st rest).map fun r => (out ++ r.1, r.2)

/-- The string behind an opening quote. A byte that breaks the encoding is noticed once the string
has ended; what is pointed at is as far in front of the end as the resolved bytes from that one on
are long. -/
def stringToken : Reader String := fun c => do
  let (s, after) ← stringFrom c.offset .plain c.rest
  match Utf8.decode? s with
  | some text => .ok (text, after)
  | none => .error ⟨.fault .badUnicode, after.offset - (s.length - Utf8.soundLength s)⟩

end TargetQuery.Json
