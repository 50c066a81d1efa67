import TargetQuery.Script.Chars

/-!
# Patterns

A pattern describes texts: a star stands for any text, a question mark for any character, and
brackets for one of several characters. A text is compared with a pattern from left to right; on
the way, the ends of the pattern that may still describe what follows are kept.
-/

namespace TargetQuery.Script

/-- A character, and whether it is quoted, so that it stands for nothing but itself. -/
abbrev Mark := Char × Bool

inductive Member where
  | range (low high : Char)
  /-- A class of characters, by its name. -/
  | kind (name : String)
deriving DecidableEq, Repr

inductive Atom where
  | exactly (c : Char)
  | anyOne
  | anyMany
  | oneOf (negated : Bool) (members : List Member)
deriving DecidableEq, Repr

def isOfKind (name : String) (c : Char) : Bool :=
  match name with
  | "alpha" => c.isAlpha
  | "digit" => c.isDigit
  | "alnum" => c.isAlphanum
  | "upper" => c.isUpper
  | "lower" => c.isLower
  | "space" => isSpace c
  | "blank" => isBlank c
  | "punct" => 33 ≤ c.toNat && c.toNat ≤ 126 && !c.isAlphanum
  | "print" => 32 ≤ c.toNat && c.toNat ≤ 126
  | "graph" => 33 ≤ c.toNat && c.toNat ≤ 126
  | "cntrl" => c.toNat < 32 || c.toNat == 127
  | "xdigit" => isDigitTo 16 c
  | _ => false

def Member.accepts (c : Char) : Member → Bool
  | .range low high => low ≤ c && c ≤ high
  | .kind name => isOfKind name c

/-- The class of characters that begins here, and what stands behind it. -/
def kindOf? : List Mark → Option (Member × List Mark)
  | ('[', false) :: (':', false) :: rest =>
    let name := rest.takeWhile fun m => m.1.isAlpha
    match rest.drop name.length with
    | (':', false) :: (']', false) :: behind =>
      some (.kind (String.ofList (name.map (·.1))), behind)
    | _ => none
  | _ => none

/-- What stands between brackets, and what stands behind them. A closing bracket in front is one of
the characters. The fuel bounds the length. -/
def members? : Nat → Bool → List Mark → Option (List Member × List Mark)
  | 0, _, _ => none
  | _ + 1, _, [] => none
  | fuel + 1, first, m :: rest =>
    if m == (']', false) && !first then some ([], rest)
    else match kindOf? (m :: rest) with
      | some (kind, rest) => do
        let (more, rest) ← members? fuel false rest
        some (kind :: more, rest)
      | none =>
        match rest with
        | ('-', false) :: high :: behind =>
          if high == (']', false) then do
            let (more, rest) ← members? fuel false rest
            some (.range m.1 m.1 :: more, rest)
          else do
            let (more, rest) ← members? fuel false behind
            some (.range m.1 high.1 :: more, rest)
        | _ => do
          let (more, rest) ← members? fuel false rest
          some (.range m.1 m.1 :: more, rest)

/-- The parts of a pattern. An opening bracket that is never closed stands for itself. The fuel
bounds the length. -/
def atomsFrom : Nat → List Mark → List Atom
  | 0, _ => []
  | _ + 1, [] => []
  | fuel + 1, (c, true) :: rest => .exactly c :: atomsFrom fuel rest
  | fuel + 1, ('*', _) :: rest => .anyMany :: atomsFrom fuel rest
  | fuel + 1, ('?', _) :: rest => .anyOne :: atomsFrom fuel rest
  | fuel + 1, ('[', _) :: rest =>
    let (negated, inside) := match rest with
      | ('!', false) :: inside | ('^', false) :: inside => (true, inside)
      | inside => (false, inside)
    match members? (rest.length + 1) true inside with
    | some (members, behind) => .oneOf negated members :: atomsFrom fuel behind
    | none => .exactly '[' :: atomsFrom fuel rest
  | fuel + 1, ('\\', false) :: (c, _) :: rest => .exactly c :: atomsFrom fuel rest
  | fuel + 1, (c, _) :: rest => .exactly c :: atomsFrom fuel rest

def atoms (marks : List Mark) : List Atom := atomsFrom (marks.length + 1) marks

/-- Whether a pattern describes anything but one text. -/
def isOpen (marks : List Mark) : Bool :=
  (atoms marks).any fun
    | .exactly _ => false
    | _ => true

/-- The ends of a pattern with which it may go on here. -/
def entries : List Atom → List (List Atom)
  | .anyMany :: rest => (.anyMany :: rest) :: entries rest
  | rest => [rest]

def behind? (c : Char) : List Atom → Option (List Atom)
  | [] => none
  | .exactly d :: rest => if c == d then some rest else none
  | .anyOne :: rest => some rest
  | .anyMany :: rest => some (.anyMany :: rest)
  | .oneOf negated members :: rest =>
    if members.any (Member.accepts c) != negated then some rest else none

/-- The ends of a pattern that may describe what follows a character. -/
def advance (c : Char) (ends : List (List Atom)) : List (List Atom) :=
  ((ends.filterMap (behind? c)).flatMap entries).eraseDups

def accepts (pattern : List Atom) (s : Chars) : Bool :=
  (s.foldl (fun ends c => advance c ends) (entries pattern)).any List.isEmpty

/-- The lengths of the beginnings of a text that are described, behind `n` characters of it. -/
def acceptedFrom (n : Nat) (ends : List (List Atom)) : Chars → List Nat
  | [] => if ends.any List.isEmpty then [n] else []
  | c :: rest =>
    let more := if ends.isEmpty then [] else acceptedFrom (n + 1) (advance c ends) rest
    if ends.any List.isEmpty then n :: more else more

/-- A value with what a pattern describes taken off its start. -/
def trimStart (longest : Bool) (pattern : List Atom) (s : Chars) : Chars :=
  let lengths := acceptedFrom 0 (entries pattern) s
  match if longest then lengths.getLast? else lengths.head? with
  | some n => s.drop n
  | none => s

/-- A value with what a pattern describes taken off one of its ends. -/
def trim (atEnd longest : Bool) (pattern : List Atom) (s : Chars) : Chars :=
  if atEnd then (trimStart longest pattern.reverse s.reverse).reverse
  else trimStart longest pattern s

end TargetQuery.Script
