import TargetQuery.Script.Regex.Basic

/-!
# Reading regular expressions

There are two ways to write an expression. In the basic one, operators other than the star have a
backslash in front; in the extended one they have none, and a backslash takes their meaning away.
An expression is first read into signs, which are the same for both; the signs are then put
together.
-/

namespace TargetQuery.Script

structure RegexStyle where
  extended : Bool := false
  /-- Whether letters behind a backslash may stand for characters that cannot be seen. -/
  escapes : Bool := false
  /-- Whether operators that have nothing to work on are overlooked. -/
  lenient : Bool := false

/-- The smallest part of a written expression. -/
inductive RegexSign where
  /-- Stands for a part of a text by itself. -/
  | part (r : Regex)
  | opened
  | closed
  | bar
  | repeated (least : Nat) (most? : Option Nat)

namespace Regex

def maxRepeats : Nat := 32767

/-- The numbers in a pair of braces, and what stands behind their end. -/
def bounds? (closing : Chars) (s : Chars) : Option (Nat × Option Nat × Chars) :=
  let low := s.takeWhile Char.isDigit
  let rest := s.drop low.length
  let least := ofDigits 10 low
  let behind? (rest : Chars) : Option Chars :=
    if rest.take closing.length == closing then some (rest.drop closing.length) else none
  match rest with
  | ',' :: rest =>
    let high := rest.takeWhile Char.isDigit
    (behind? (rest.drop high.length)).map fun rest =>
      (least, if high.isEmpty then none else some (ofDigits 10 high), rest)
  | rest =>
    if low.isEmpty then none else (behind? rest).map fun rest => (least, some least, rest)

def boundSign (style : RegexStyle) (s : Chars) : Except String (Option (RegexSign × Chars)) :=
  let closing := if style.extended then ['\x7d'] else ['\\', '\x7d']
  match bounds? closing s with
  | some (least, most?, rest) =>
    if most?.any (· < least) then .error "Invalid content of \\\x7b\\\x7d"
    else if maxRepeats < least || most?.any (maxRepeats < ·) then
      .error "Regular expression too big"
    else .ok (some (.repeated least most?, rest))
  | none =>
    if style.lenient && style.extended then .ok none
    else if s.all fun c => c.isDigit || c == ',' then .error "Unmatched \\\x7b"
    else .error "Invalid content of \\\x7b\\\x7d"

/-- The character that a letter stands for, with digits behind it if it wants some, when a backslash
is in front; and how many characters that are. -/
def hidden? (c : Char) (rest : Chars) : Option (Char × Nat) :=
  let byNumber (base most : Nat) : Option (Char × Nat) :=
    let digits := (rest.take most).takeWhile (isDigitTo base)
    if digits.isEmpty then none
    else some (Char.ofNat (ofDigits base digits % 256), digits.length + 1)
  match c with
  | 'a' => some (Char.ofNat 7, 1)
  | 'f' => some (Char.ofNat 12, 1)
  | 'n' => some ('\n', 1)
  | 'r' => some ('\r', 1)
  | 't' => some ('\t', 1)
  | 'v' => some (Char.ofNat 11, 1)
  | 'd' => byNumber 10 3
  | 'o' => byNumber 8 3
  | 'x' => byNumber 16 2
  | _ => none

/-- What a letter behind a backslash describes, in either way of writing. -/
def described? (c : Char) : Option Regex :=
  let word := [Member.kind "alnum", .range '_' '_']
  match c with
  | 'w' => some (.oneOf false word)
  | 'W' => some (.oneOf true word)
  | 's' => some (.oneOf false [.kind "space"])
  | 'S' => some (.oneOf true [.kind "space"])
  | 'b' => some (.edge (.wordEdge false))
  | 'B' => some (.edge (.wordEdge true))
  | '<' => some (.edge .wordStart)
  | '>' => some (.edge .wordFinish)
  | '`' => some (.edge .start)
  | '\'' => some (.edge .finish)
  | _ => none

/-- The text between brackets with the characters that letters behind backslashes stand for. So many
characters are passed over. -/
def revealed : Nat → Chars → Chars
  | _, [] => []
  | skipped + 1, _ :: rest => revealed skipped rest
  | 0, c :: rest =>
    match c, rest with
    | '\\', d :: more =>
      match hidden? d more with
      | some (shown, count) => shown :: revealed count rest
      | none => c :: revealed 0 rest
    | _, _ => c :: revealed 0 rest

def kinds : List String :=
  ["alnum", "alpha", "blank", "cntrl", "digit", "graph", "lower", "print", "punct", "space",
    "upper", "xdigit"]

/-- What is wrong with something that stands between brackets, if anything is. -/
def mistaken? : Member → Option String
  | .range low high => if high < low then some "Invalid range end" else none
  | .kind name => if kinds.contains name then none else some "Invalid character class name"

def bracketSign (style : RegexStyle) (s : Chars) : Except String (RegexSign × Chars) :=
  let s := if style.escapes then revealed 0 s else s
  let (negated, inside) := match s with
    | '^' :: inside => (true, inside)
    | inside => (false, inside)
  match members? (inside.length + 1) true (inside.map (·, false)) with
  | none =>
    .error (if s.isEmpty then "Invalid regular expression" else "Unmatched [, [^, [:, [., or [=")
  | some (members, rest) =>
    let body := inside.take (inside.length - rest.length - 1)
    match members.findSome? mistaken? with
    | some mistake => .error mistake
    | none =>
      if style.lenient && !negated && body.head? == some ':' && body.getLast? == some ':' then
        .error "character class syntax is [[:space:]], not [:space:]"
      else .ok (.part (.oneOf negated members), rest.map (·.1))

/-- The signs of an expression. What is given tells whether nothing is in front that could be
repeated. The fuel bounds the length. -/
def signs (style : RegexStyle) : Nat → Bool → Chars → Except String (List RegexSign)
  | 0, _, _ => .ok []
  | _ + 1, _, [] => .ok []
  | fuel + 1, first, c :: rest =>
    let next (sign : RegexSign) (first : Bool) (rest : Chars) : Except String (List RegexSign) :=
      (signs style fuel first rest).map (sign :: ·)
    let itself (c : Char) (rest : Chars) := next (.part (exactly c)) false rest
    let operator (sign : RegexSign) (first : Bool) := next sign first rest
    let repetition (least : Nat) (most? : Option Nat) : Except String (List RegexSign) :=
      if !first then operator (.repeated least most?) false
      else if style.lenient then signs style fuel first rest
      else .error "Invalid preceding regular expression"
    let braces (rest : Chars) : Except String (List RegexSign) := do
      match ← boundSign style rest with
      | some (sign, rest) => next sign false rest
      | none => itself '\x7b' rest
    let isFinish :=
      match rest with
      | [] => true
      | '\\' :: c :: _ => !style.extended && (c == ')' || c == '|')
      | _ => false
    match c, style.extended with
    | '\\', extended =>
      match rest with
      | [] => .error "Trailing backslash"
      | c :: rest =>
        match if style.escapes then hidden? c rest else none with
        | some (d, count) => itself d (rest.drop (count - 1))
        | none =>
          match described? c with
          | some r => next (.part r) false rest
          | none =>
            if c.isDigit && c != '0' then
              next (.part (.again (c.toNat - '0'.toNat))) false rest
            else if extended then itself c rest
            else match c with
              | '(' => next .opened true rest
              | ')' => next .closed false rest
              | '|' => next .bar true rest
              | '+' => if first then itself c rest else next (.repeated 1 none) false rest
              | '?' => if first then itself c rest else next (.repeated 0 (some 1)) false rest
              | '\x7b' =>
                if !first then braces rest
                else if style.lenient then itself c rest
                else .error "Invalid preceding regular expression"
              | c => itself c rest
    | '[', _ => do
      let (sign, rest) ← bracketSign style rest
      next sign false rest
    | '.', _ => next (.part anyOne) false rest
    | '*', true => repetition 0 none
    | '*', false => if first then itself c rest else operator (.repeated 0 none) false
    | '^', true => operator (.part (.edge .start)) true
    | '$', true => operator (.part (.edge .finish)) false
    | '^', false =>
      if first then operator (.part (.edge .start)) true else itself c rest
    | '$', false => if isFinish then operator (.part (.edge .finish)) false else itself c rest
    | '(', true => operator .opened true
    | ')', true => operator .closed false
    | '|', true => operator .bar true
    | '+', true => repetition 1 none
    | '?', true => repetition 0 (some 1)
    | '\x7b', true =>
      if first && !style.lenient then .error "Invalid preceding regular expression" else braces rest
    | c, _ => itself c rest

/-- Puts signs together, with the number of groups that have begun and the numbers of those that
have ended. -/
abbrev Joining := StateT (List RegexSign × Nat × List Nat) (Except String)

mutual

/-- Expressions of which one is described, up to the end of the group. -/
def choices (style : RegexStyle) : Nat → Bool → Joining Regex
  | 0, _ => pure .nothing
  | fuel + 1, within => do
    let a ← parts style fuel within .nothing
    match ← get with
    | (.bar :: rest, state) =>
      set (rest, state)
      let b ← choices style fuel within
      pure (.either a b)
    | _ => pure a

def parts (style : RegexStyle) : Nat → Bool → Regex → Joining Regex
  | 0, _, done => pure done
  | fuel + 1, within, done => do
    match ← get with
    | ([], _) | (.bar :: _, _) => pure done
    | (.closed :: rest, state) =>
      if within then pure done
      else if style.extended && style.lenient then
        set (rest, state)
        parts style fuel within (.both done (exactly ')'))
      else throw "Unmatched ) or \\)"
    | (.repeated _ _ :: rest, state) =>
      set (rest, state)
      parts style fuel within done
    | (.part r :: rest, begun, ended) =>
      match r with
      | .again number =>
        if !ended.contains number then throw "Invalid back reference"
      | _ => pure ()
      set (rest, begun, ended)
      let r ← repeats fuel r
      parts style fuel within (.both done r)
    | (.opened :: rest, begun, ended) =>
      let number := begun + 1
      set (rest, number, ended)
      let inside ← choices style fuel true
      match ← get with
      | (.closed :: rest, begun, ended) =>
        set (rest, begun, number :: ended)
        let r ← repeats fuel (.group number inside)
        parts style fuel within (.both done r)
      | _ => throw "Unmatched ( or \\("

def repeats : Nat → Regex → Joining Regex
  | 0, r => pure r
  | fuel + 1, r => do
    match ← get with
    | (.repeated least most? :: rest, state) =>
      set (rest, state)
      repeats fuel (.repeated r least most?)
    | _ => pure r

end

/-- Reads an expression; what is wrong with it is given as text. -/
def ofChars (style : RegexStyle) (s : Chars) : Except String Regex := do
  let signs ← signs style (s.length + 1) true s
  let (r, _) ← (choices style (2 * signs.length + 2) false).run (signs, 0, [])
  pure r

end Regex

end TargetQuery.Script
