import TargetQuery.Script.Edit.Basic
import TargetQuery.Script.Regex.Grammar

/-!
# Reading edits

An edit is written as a letter behind its addresses; what it needs further is written behind the
letter. Edits are on lines of their own or have semicolons between them.
-/

namespace TargetQuery.Script

/-- Reads edits from what is left of a text; so many characters of it have been read. What is wrong
is told with the position. -/
abbrev EditReader := StateT (Nat × Chars) (Except (Nat × Chars))

namespace EditReader

def left : EditReader Chars := do pure (← get).2

def pass (count : Nat) : EditReader Unit := do
  let (n, rest) ← get
  set (n + min count rest.length, rest.drop count)

def fail {α : Type} (text : String) : EditReader α := do
  throw ((← get).1, text.toList)

def takeWhile (p : Char → Bool) : EditReader Chars := do
  let taken := (← left).takeWhile p
  pass taken.length
  pure taken

def skipBlanks : EditReader Unit := do
  let _ ← takeWhile isBlank

def next? : EditReader (Option Char) := do
  let c? := (← left).head?
  if c?.isSome then pass 1
  pure c?

def number? : EditReader (Option Nat) := do
  let digits ← takeWhile Char.isDigit
  pure (if digits.isEmpty then none else some (ofDigits 10 digits))

/-- What is between brackets, with them: up to the closing bracket that is not the first character
inside and not part of the name of a class. The fuel bounds the length. -/
def bracketed : Nat → Bool → Chars → Chars
  | 0, _, _ => []
  | _ + 1, _, [] => []
  | fuel + 1, true, '^' :: ']' :: rest => '^' :: ']' :: bracketed fuel false rest
  | fuel + 1, true, ']' :: rest => ']' :: bracketed fuel false rest
  | fuel + 1, _, '[' :: ':' :: rest =>
    let name := rest.takeWhile Char.isAlpha
    '[' :: ':' :: name ++ bracketed fuel false (rest.drop name.length)
  | _ + 1, _, ':' :: ']' :: ']' :: _ => [':', ']', ']']
  | fuel + 1, _, ':' :: ']' :: rest => ':' :: ']' :: bracketed fuel false rest
  | _ + 1, _, ']' :: _ => [']']
  | fuel + 1, _, c :: rest => c :: bracketed fuel false rest

/-- The text up to a character that is not hidden by a backslash or brackets, if there is one. The
fuel bounds the length. -/
def upTo? (stop : Char) (isRegex : Bool) : Nat → EditReader (Option Chars)
  | 0 => pure none
  | fuel + 1 => do
    let more (s : Chars) : EditReader (Option Chars) := do
      pure ((← upTo? stop isRegex fuel).map (s ++ ·))
    match ← left with
    | [] | '\n' :: _ => pure none
    | '\\' :: c :: _ =>
      pass 2
      if c == stop then more (if c == '&' && !isRegex then ['\\', c] else [c])
      else if c == '\n' then more [c]
      else more ['\\', c]
    | c :: rest =>
      pass 1
      if c == stop then pure (some [])
      else if c == '[' && isRegex then
        let inside := bracketed (rest.length + 1) true rest
        pass inside.length
        if inside.getLast? == some ']' then more (c :: inside) else pure none
      else more [c]

/-- An expression; an empty one stands for the last one. -/
def regex (extended folds : Bool) (s : Chars) : EditReader Sought := do
  if s.isEmpty then pure { regex? := none, folds }
  else match Regex.ofChars { extended, escapes := true } s with
    | .ok r => pure { regex? := some r, folds }
    | .error why => fail why

def address? (extended : Bool) : EditReader (Option Address) := do
  let s ← left
  let described (stop : Char) : EditReader (Option Address) := do
    match ← upTo? stop true (s.length + 1) with
    | none => fail "unterminated address regex"
    | some text =>
      let letters ← takeWhile fun c => c == 'I' || c == 'M'
      return some (.holding (← regex extended (letters.contains 'I') text))
  match s with
  | '$' :: _ =>
    pass 1
    pure (some .last)
  | '/' :: _ =>
    pass 1
    described '/'
  | '\\' :: stop :: _ =>
    pass 2
    described stop
  | '+' :: _ | '~' :: _ =>
    pass 2
    fail "invalid usage of +N or ~N as first address"
  | _ =>
    match ← number? with
    | none => pure none
    | some n =>
      match ← left with
      | '~' :: _ =>
        pass 1
        return some (.every n ((← number?).getD 0))
      | _ => pure (some (.line n))

def limit (extended : Bool) : EditReader Limit := do
  match ← left with
  | '+' :: _ =>
    pass 1
    return .further ((← number?).getD 0)
  | '~' :: _ =>
    pass 1
    return .multiple ((← number?).getD 0)
  | _ =>
    match ← address? extended with
    | some a => pure (.upTo a)
    | none =>
      pass 1
      fail "unexpected `,'"

def scope (extended : Bool) : EditReader Scope := do
  let first? ← address? extended
  skipBlanks
  let limit? ← match first?, ← left with
    | some _, ',' :: _ =>
      pass 1
      skipBlanks
      some <$> limit extended
    | _, _ => pure none
  match first?, limit? with
  | some (.line 0), some (.upTo (.holding _)) => pure ()
  | some (.line 0), _ =>
    pass 1
    fail "invalid usage of line address 0"
  | _, _ => pure ()
  skipBlanks
  match ← left with
  | '!' :: _ =>
    pass 1
    skipBlanks
    if (← left).head? == some '!' then
      pass 1
      fail "multiple `!'s"
    pure { first?, limit?, negated := true }
  | _ => pure { first?, limit? }

def ending : EditReader Unit := do
  skipBlanks
  match ← left with
  | [] | '\x7d' :: _ | '#' :: _ => pure ()
  | c :: _ =>
    pass 1
    if c != '\n' && c != ';' then fail "extra characters after command"

/-- A text with what stands behind backslashes in it, up to the end of the line. The fuel bounds the
length. -/
def textFrom : Nat → EditReader Chars
  | 0 => pure []
  | fuel + 1 => do
    match ← next? with
    | none => pure []
    | some '\n' => pure []
    | some '\\' =>
      match ← next? with
      | none => pure []
      | some c =>
        match Regex.hidden? c (← left) with
        | some (d, count) =>
          pass (count - 1)
          return d :: (← textFrom fuel)
        | none => return c :: (← textFrom fuel)
    | some c => return c :: (← textFrom fuel)

def text : EditReader Chars := do
  skipBlanks
  match ← left with
  | [] => fail "expected \\ after `a', `c' or `i'"
  | '\\' :: rest =>
    pass 1
    let blanks := rest.takeWhile isBlank
    if (rest.drop blanks.length).head? == some '\n' then pass (blanks.length + 1)
    if (← left).isEmpty then pure []
    else return (← textFrom (rest.length + 1)) ++ ['\n']
  | s => return (← textFrom (s.length + 1)) ++ ['\n']

def labelName : EditReader Chars := do
  skipBlanks
  takeWhile fun c => !isSpace c && c != ';' && c != '\x7d'

def fileName : EditReader Chars := do
  skipBlanks
  let name ← takeWhile (· != '\n')
  if name.isEmpty then fail "missing filename in r/R/w/W commands"
  pure name

/-- What stands for a replaced text, when a backslash is in front; and how many characters that are.
-/
def fillingBehind (c : Char) (rest : Chars) : Filling × Nat :=
  match c with
  | 'L' => (.recase false .lower, 1)
  | 'U' => (.recase false .upper, 1)
  | 'E' => (.recase false .keep, 1)
  | 'l' => (.recase true .lower, 1)
  | 'u' => (.recase true .upper, 1)
  | c =>
    if c.isDigit then (.group (c.toNat - '0'.toNat), 1)
    else match Regex.hidden? c rest with
      | some (d, count) => (.char d, count)
      | none => (.char c, 1)

/-- The parts of what stands for a replaced text. So many characters are passed over. -/
def pieces : Nat → Chars → List Filling
  | _, [] => []
  | skipped + 1, _ :: rest => pieces skipped rest
  | 0, c :: rest =>
    match c, rest with
    | '\\', d :: more =>
      let (filling, count) := fillingBehind d more
      filling :: pieces count rest
    | '&', _ => .group 0 :: pieces 0 rest
    | _, _ => .char c :: pieces 0 rest

/-- What stands behind a substitution. The fuel bounds its length. -/
def marks : Nat → Substitution → Bool → EditReader (Substitution × Bool)
  | 0, s, folds => pure (s, folds)
  | fuel + 1, s, folds => do
    match ← left with
    | 'g' :: _ =>
      pass 1
      marks fuel { s with all := true } folds
    | 'p' :: _ =>
      pass 1
      marks fuel { s with prints := s.prints + 1 } folds
    | 'i' :: _ | 'I' :: _ =>
      pass 1
      marks fuel s true
    | 'm' :: _ | 'M' :: _ =>
      pass 1
      marks fuel s folds
    | 'w' :: _ =>
      pass 1
      let name ← fileName
      pure ({ s with file? := some name }, folds)
    | c :: _ =>
      if c.isDigit then
        let n := (← number?).getD 0
        if n == 0 then fail "number option to `s' command may not be zero"
        marks fuel { s with nth := n } folds
      else if isBlank c || c == '\n' || ";#\x7d".toList.contains c then pure (s, folds)
      else
        pass 1
        fail "unknown option to `s'"
    | [] => pure (s, folds)

def substitution (extended : Bool) : EditReader Edit := do
  match ← next? with
  | none => fail "unterminated `s' command"
  | some stop =>
    let fuel := (← left).length + 1
    match ← upTo? stop true fuel with
    | none => fail "unterminated `s' command"
    | some old =>
      match ← upTo? stop false fuel with
      | none => fail "unterminated `s' command"
      | some new =>
        let what : Sought := { regex? := none }
        let (s, folds) ← marks fuel { what, pieces := pieces 0 new } false
        let what ← regex extended folds old
        let count := (what.regex?.map Regex.groupCount).getD 9
        let missing? := s.pieces.findSome? fun
          | .group n => if count < n then some n else none
          | _ => none
        match missing? with
        | some n => fail ("invalid reference \\" ++ toString n ++ " on `s' command's RHS")
        | none => pure (.substitute { s with what })

/-- The characters of a text in which a backslash may stand in front of some. So many characters are
passed over. -/
def plain : Nat → Chars → Chars
  | _, [] => []
  | skipped + 1, _ :: rest => plain skipped rest
  | 0, c :: rest =>
    match c, rest with
    | '\\', d :: more =>
      let (shown, count) := (Regex.hidden? d more).getD (d, 1)
      shown :: plain count rest
    | _, _ => c :: plain 0 rest

def letterMap : EditReader Edit := do
  match ← next? with
  | none => fail "unterminated `y' command"
  | some stop =>
    let fuel := (← left).length + 1
    match ← upTo? stop false fuel with
    | none => fail "unterminated `y' command"
    | some old =>
      match ← upTo? stop false fuel with
      | none => fail "unterminated `y' command"
      | some new =>
        let (old, new) := (plain 0 old, plain 0 new)
        if old.length != new.length then fail "strings for `y' command are different lengths"
        pure (.map old new)

def simple? (c : Char) : Option Edit :=
  match c with
  | '=' => some .printNumber
  | 'd' => some .delete
  | 'D' => some .deleteFirst
  | 'g' => some .fetch
  | 'G' => some .fetchMore
  | 'h' => some .hold
  | 'H' => some .holdMore
  | 'l' => some .printPlainly
  | 'n' => some .next
  | 'N' => some .nextMore
  | 'p' => some .print
  | 'P' => some .printFirst
  | 'x' => some .exchange
  | 'z' => some .clear
  | _ => none

def edit (extended : Bool) (scope : Scope) : EditReader Edit := do
  let ended (e : Edit) : EditReader Edit := do
    ending
    pure e
  match ← next? with
  | none | some '\n' | some ';' => fail "missing command"
  | some c =>
    match simple? c with
    | some e => ended e
    | none =>
      match c with
      | '\x7b' => pure .opened
      | '\x7d' =>
        if scope.first?.isSome then fail "\x7d doesn't want any addresses"
        ended .closed
      | ':' =>
        if scope.first?.isSome then fail ": doesn't want any addresses"
        let name ← labelName
        if name.isEmpty then fail "\":\" lacks a label"
        pure (.label name)
      | 'a' => .append <$> text
      | 'i' => .insert <$> text
      | 'c' => .change <$> text
      | 'b' =>
        let name ← labelName
        ended (.branch .always name)
      | 't' =>
        let name ← labelName
        ended (.branch .ifReplaced name)
      | 'T' =>
        let name ← labelName
        ended (.branch .unlessReplaced name)
      | 'q' | 'Q' =>
        skipBlanks
        let status := (← number?).getD 0
        ended (.quit (c == 'q') status)
      | 'r' => .readFile <$> fileName
      | 'w' => .writeFile <$> fileName
      | 's' =>
        let e ← substitution extended
        if let .substitute { file? := some _, .. } := e then pure e else ended e
      | 'y' =>
        let e ← letterMap
        ended e
      | c => fail ("unknown command: `" ++ String.singleton c ++ "'")

/-- Edits up to the end. So many blocks are open. The fuel bounds the length. -/
def edits (extended : Bool) : Nat → Nat → EditScript → EditReader EditScript
  | 0, _, done => pure done
  | fuel + 1, depth, done => do
    let _ ← takeWhile fun c => isSpace c || c == ';'
    match ← left with
    | [] => if depth == 0 then pure done else throw (0, "unmatched `\x7b'".toList)
    | '#' :: _ =>
      let _ ← takeWhile (· != '\n')
      edits extended fuel depth done
    | _ =>
      let scope ← scope extended
      if (← left).head? == some '#' then
        pass 1
        fail "comments don't accept any addresses"
      let e ← edit extended scope
      match e, depth with
      | .closed, 0 => fail "unexpected `\x7d'"
      | .closed, depth + 1 => edits extended fuel depth (done.push (scope, e))
      | .opened, depth => edits extended fuel (depth + 1) (done.push (scope, e))
      | _, depth => edits extended fuel depth (done.push (scope, e))

end EditReader

/-- Reads edits; what is wrong with them is given as text, with the status for it. -/
def EditScript.ofChars (extended : Bool) (s : Chars) : Except (Chars × Nat) EditScript :=
  match (EditReader.edits extended (s.length + 1) 0 #[]).run (0, s) with
  | .error (n, why) =>
    .error ("-e expression #1, char ".toList ++ ofNat n ++ ": ".toList ++ why, 1)
  | .ok (script, _) =>
    let goal? : Scope × Edit → Option Chars
      | (_, .branch _ name) => if name.isEmpty then none else some name
      | _ => none
    let isLabel (name : Chars) : Bool := script.any fun (_, e) =>
      match e with
      | .label other => other == name
      | _ => false
    match (script.toList.filterMap goal?).find? (!isLabel ·) with
    | some name => .error ("can't find label for jump to `".toList ++ name ++ ['\''], 4)
    | none => .ok script

end TargetQuery.Script
