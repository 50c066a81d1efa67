import TargetQuery.Script.Regex.Grammar
import TargetQuery.Script.Utility.Basic

/-!
# Searching

Lines are selected by regular expressions, of which one has to describe a part of a line. The lines
are shown, with what is around them if that is asked for, or they are counted.
-/

namespace TargetQuery.Script.Utility

/-- An expression for a text that stands for nothing but itself. -/
def verbatim (s : Chars) : Regex := s.foldr (fun c r => .both (.exactly c) r) .nothing

/-- What lines are searched for: one of some expressions. Without any, nothing is found. -/
def soughtOf (o : Options) (patterns : List Chars) : Except String (Option Regex) := do
  let style : RegexStyle := { extended := o.has 'E', lenient := true }
  let one (s : Chars) : Except String Regex := do
    let r ← if o.has 'F' then pure (verbatim s) else Regex.ofChars style s
    if o.has 'x' then pure (.both (.edge .start) (.both r (.edge .finish)))
    else if o.has 'w' then pure (.both (.edge .notBehindWord) (.both r (.edge .notBeforeWord)))
    else pure r
  let all ← patterns.mapM one
  pure (all.tail.foldl (fun r? s => r?.map (.either · s)) all.head?)

/-- The parts of a line that are described and are not empty. The fuel bounds their number. -/
def describedParts (folds : Bool) (r : Regex) : Nat → Spot → List Chars
  | 0, _ => []
  | fuel + 1, s =>
    match r.find? folds s with
    | none => []
    | some (a, b) =>
      if a.passed == b.passed then
        if a.rest.isEmpty then [] else describedParts folds r fuel (a.behind 1)
      else a.textTo b :: describedParts folds r fuel b

def selected (o : Options) (r? : Option Regex) (most? : Option Nat) (lines : List Chars) :
    List Bool :=
  (lines.foldl (fun (n, chosen) line =>
    let isFull := most?.any (· ≤ n)
    let found? := r?.bind fun r => r.find? (o.has 'i' || o.has 'y') { rest := line }
    let isWanted := !isFull && found?.isSome != o.has 'v'
    (if isWanted then n + 1 else n, isWanted :: chosen)) ((0, []) : Nat × List Bool)).2.reverse

/-- The lines that are shown, with their numbers and whether they are selected: those that are, and
some around them. -/
def surrounding (before after : Nat) (lines : List (Chars × Bool)) : List (Nat × Chars × Bool) :=
  let numbered := (List.range lines.length).zip lines
  let chosen := (numbered.filter (·.2.2)).map (·.1)
  numbered.filter fun (i, _) => chosen.any fun j => j ≤ i + before && i ≤ j + after

/-- Shows lines of a file. There are dashes between those that do not follow each other. -/
def showLines (o : Options) (title : Chars) (parts : Chars → List Chars) (dashed : Bool) :
    Option Nat → List (Nat × Chars × Bool) → Task Unit
  | _, [] => pure ()
  | last?, (i, line, isSelected) :: rest => do
    if dashed && last?.any (· + 1 < i) then print "--\n".toList
    let mark := if isSelected then ':' else '-'
    let front := (if title.isEmpty then [] else title ++ [mark])
      ++ (if o.has 'n' then ofNat (i + 1) ++ [mark] else [])
    if !o.has 'o' then printLines [front ++ line]
    else if isSelected then printLines ((parts line).map (front ++ ·))
    showLines o title parts dashed (some i) rest

/-- Searches one content, and says whether lines were selected. What is given tells among others
whether lines of another content were shown before. -/
def searchIn (zero : Chars) (o : Options) (r? : Option Regex) (counts : Nat × Nat)
    (most? : Option Nat) (isTitled isLater : Bool) (name : Chars) (content : Bytes) :
    Task Bool := do
  let shownName := if name == ['-'] then "(standard input)".toList else name
  let lines := bareLines content
  let marks := selected o r? most? lines
  let isFound := marks.contains true
  let title := if isTitled then shownName else []
  if o.has 'q' then pure ()
  else if o.has 'l' then if isFound then printLines [shownName]
  else if o.has 'L' then if !isFound then printLines [shownName]
  else if o.has 'c' then
    printLines [(if isTitled then shownName ++ [':'] else []) ++ ofNat (marks.count true)]
  else if content.contains Ascii.nul && !o.has 'a' then
    if isFound then complainAs zero (shownName ++ ": binary file matches".toList)
  else
    let shownLines := surrounding counts.1 counts.2 (lines.zip marks)
    let parts (line : Chars) : List Chars :=
      match if o.has 'v' then none else r? with
      | some r => describedParts (o.has 'i' || o.has 'y') r (line.length + 1) { rest := line }
      | none => []
    let isDashed := counts.1 + counts.2 != 0
    if isDashed && isLater && isFound then print "--\n".toList
    showLines o title parts isDashed none shownLines
  pure isFound

/-- The number of lines of context that is given as an option of its own. -/
def withOldContext (arguments : List Chars) : List Chars :=
  arguments.flatMap fun
    | '-' :: d :: more =>
      if (d :: more).all Char.isDigit then [['-', 'C'], d :: more] else ['-' :: d :: more]
    | a => [a]

def searchNames : List (String × Char) :=
  [("after-context", 'A'), ("before-context", 'B'), ("context", 'C'), ("count", 'c'),
    ("extended-regexp", 'E'), ("file", 'f'), ("files-with-matches", 'l'),
    ("files-without-match", 'L'), ("fixed-strings", 'F'), ("ignore-case", 'i'),
    ("invert-match", 'v'), ("line-number", 'n'), ("line-regexp", 'x'), ("max-count", 'm'),
    ("no-filename", 'h'), ("no-messages", 's'), ("only-matching", 'o'), ("quiet", 'q'),
    ("regexp", 'e'), ("silent", 'q'), ("text", 'a'), ("with-filename", 'H'), ("word-regexp", 'w')]

/-- The patterns that options give, if they do. Files with patterns that cannot be read are told. -/
def patternsOf (o : Options) : Task (Except (Chars × SystemFailure) (List Chars)) := do
  let one (done : Except (Chars × SystemFailure) (List Chars)) (v : Char × Chars) :
      Task (Except (Chars × SystemFailure) (List Chars)) := do
    match done, v.1 with
    | .error why, _ => pure (.error why)
    | .ok patterns, 'e' => pure (.ok (patterns ++ splitAt '\n' v.2))
    | .ok patterns, 'f' =>
      match ← contentOf v.2 with
      | .ok content => pure (.ok (patterns ++ bareLines content))
      | .error failure => pure (.error (v.2, failure))
    | done, _ => pure done
  o.values.foldlM one (.ok [])

def grep (zero : Chars) (arguments : List Chars) : Task Nat := do
  let usage : Task Nat := do
    complain "Usage: grep [OPTION]... PATTERNS [FILE]...\n".toList
    complain "Try 'grep --help' for more information.\n".toList
    pure 2
  let arguments := withOldContext (shortened searchNames arguments)
  match readOptions "EFGHLachilnoqsvwxy".toList "efmABC".toList {} arguments with
  | .error why =>
    complainAs zero why
    usage
  | .ok o =>
    let isGiven := o.values.any fun v => v.1 == 'e' || v.1 == 'f'
    match ← patternsOf o, isGiven, o.operands with
    | .error (name, failure), _, _ =>
      complainAs zero (name ++ ": ".toList ++ reason failure)
      pure 2
    | .ok _, false, [] => usage
    | .ok _, false, patterns :: names => search o (splitAt '\n' patterns) names
    | .ok patterns, true, names => search o patterns names
where
  /-- Searches files for expressions. -/
  search (o : Options) (patterns : List Chars) (names : List Chars) : Task Nat := do
    match soughtOf o patterns with
    | .error why =>
      complainAs zero why.toList
      pure 2
    | .ok r? =>
      let count (c : Char) : Nat :=
        (((o.value? c).orElse fun _ => o.value? 'C').bind natural?).getD 0
      let counts := (count 'B', count 'A')
      let most? := (o.value? 'm').bind natural?
      let names := if names.isEmpty then [['-']] else names
      let isTitled := (1 < names.length || o.has 'H') && !o.has 'h'
      let one (state : Bool × Bool) (name : Chars) : Task (Bool × Bool) := do
        if o.has 'q' && state.1 then pure state
        else match ← contentOf name with
          | .ok content =>
            let isFound ← searchIn zero o r? counts most? isTitled state.1 name content
            pure (state.1 || isFound, state.2)
          | .error failure =>
            if !o.has 's' || failure == .isADirectory then
              complainAs zero (name ++ ": ".toList ++ reason failure)
            pure (state.1, true)
      let (isFound, hasFailed) ← names.foldlM one (false, false)
      pure (if hasFailed && !(o.has 'q' && isFound) then 2 else if isFound then 0 else 1)

end TargetQuery.Script.Utility
