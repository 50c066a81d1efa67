import TargetQuery.Script.Regex.Basic

/-!
# Edits of lines

A list of edits is carried out on each line of a text. The line at hand stands in the working space,
where edits change it; another space keeps a text from one line to the next. An edit may apply to
some of the lines only: to one that an address names, or to all from one address up to another.
-/

namespace TargetQuery.Script

/-- An expression with whether it tells upper from lower case; none stands for the one used last. -/
structure Sought where
  regex? : Option Regex
  folds : Bool := false

inductive Address where
  | line (n : Nat)
  | last
  /-- A line, and every line that is so many steps behind it. -/
  | every (first step : Nat)
  | holding (what : Sought)

/-- Names the last of several lines. -/
inductive Limit where
  | upTo (a : Address)
  /-- So many lines further on. -/
  | further (count : Nat)
  /-- The next line whose number is a multiple. -/
  | multiple (of : Nat)

/-- The lines to which an edit applies. -/
structure Scope where
  first? : Option Address := none
  limit? : Option Limit := none
  negated : Bool := false

/-- What happens to the case of letters. -/
inductive Recasing where
  | lower
  | upper
  | keep
deriving DecidableEq

/-- A part of what stands for a text that is replaced. -/
inductive Filling where
  | char (c : Char)
  /-- The text of a group, or all that is replaced for number zero. -/
  | group (number : Nat)
  /-- Changes the case of all that follows, or of one character only. -/
  | recase (one : Bool) (target : Recasing)

/-- How a part of a line is replaced. -/
structure Substitution where
  what : Sought
  pieces : List Filling
  /-- The first one that is replaced. -/
  nth : Nat := 1
  all : Bool := false
  /-- How often the line is printed if something was replaced. -/
  prints : Nat := 0
  file? : Option Chars := none

/-- When an edit goes on elsewhere. -/
inductive BranchRule where
  | always
  | ifReplaced
  | unlessReplaced
deriving DecidableEq

inductive Edit where
  /-- Begins a block, which is passed over as a whole. -/
  | opened
  | closed
  | label (name : Chars)
  | branch (when : BranchRule) (name : Chars)
  | append (text : Chars)
  | insert (text : Chars)
  | change (text : Chars)
  | delete
  | deleteFirst
  | clear
  | hold
  | holdMore
  | fetch
  | fetchMore
  | exchange
  | next
  | nextMore
  | print
  | printFirst
  | printPlainly
  | printNumber
  | quit (prints : Bool) (status : Nat)
  | readFile (name : Chars)
  | writeFile (name : Chars)
  | map (old new : Chars)
  | substitute (s : Substitution)

/-- A list of edits, each with the lines to which it applies. -/
abbrev EditScript := Array (Scope × Edit)

structure Editing where
  /-- The line at hand, and whether it has a line end. -/
  space : Chars := []
  isWhole : Bool := true
  /-- What is kept. -/
  kept : Chars := []
  keptWhole : Bool := true
  /-- The number of the line at hand, and the lines that are left. -/
  number : Nat := 0
  left : List (Chars × Bool)
  /-- The output, the latest part first; and whether it lacks a line end. -/
  output : List Chars := []
  lacksEnd : Bool := false
  /-- What is printed behind the line at hand, the latest first. -/
  appended : List Chars := []
  /-- The edits that apply up to some line, which may have a number. -/
  active : List (Nat × Option Nat) := []
  replaced : Bool := false
  sought? : Option Sought := none
  /-- What has been written to files, the latest first. -/
  written : List (Chars × Chars) := []
  status : Nat := 0
  failed? : Option String := none

namespace Editing

def completed (e : Editing) : Editing :=
  if e.lacksEnd then { e with output := ['\n'] :: e.output, lacksEnd := false } else e

/-- Adds a text to the output. A line end that was missing comes first. -/
def put (e : Editing) (text : Chars) (isWhole : Bool) : Editing :=
  let e := e.completed
  { e with output := (if isWhole then text ++ ['\n'] else text) :: e.output, lacksEnd := !isWhole }

def printed (e : Editing) : Editing := e.put e.space e.isWhole

/-- Prints what is to be printed behind the line at hand. -/
def flushed (e : Editing) : Editing :=
  if e.appended.isEmpty then e
  else
    let e := e.completed
    { e with output := e.appended ++ e.output, appended := [] }

def writtenTo (e : Editing) (name : Chars) : Editing :=
  if name == "/dev/stdout".toList then e.printed
  else { e with written := (name, if e.isWhole then e.space ++ ['\n'] else e.space) :: e.written }

/-- The first part of the line at hand that is described by an expression, if there is one to be
used. -/
def found? (e : Editing) (what : Sought) (s : Spot) : Option (Spot × Spot) × Editing :=
  let what? := if what.regex?.isSome then some what else e.sought?
  match what? with
  | some { regex? := some r, folds } => (r.find? folds s, { e with sought? := what? })
  | _ => (none, { e with failed? := some "no previous regular expression" })

def isAt (e : Editing) : Address → Bool × Editing
  | .line n => (e.number == n, e)
  | .last => (e.left.isEmpty, e)
  | .every first step =>
    let n := e.number
    (if step == 0 then n == first else first ≤ n && (n - first) % step == 0, e)
  | .holding what =>
    let (found, e) := e.found? what { rest := e.space }
    (found.isSome, e)

def withActive (e : Editing) (i : Nat) (state? : Option (Option Nat)) : Editing :=
  let others := e.active.filter (·.1 != i)
  { e with active := (state?.map fun s => (i, s)).toList ++ others }

/-- Whether the edit at a position applies to the line at hand. -/
def applies (e : Editing) (i : Nat) (scope : Scope) : Bool × Editing :=
  let (isIn, e) := match scope.first?, scope.limit? with
    | none, _ => (true, e)
    | some a, none => e.isAt a
    | some a, some limit =>
      match e.active.lookup i with
      | some (some n) =>
        (e.number ≤ n, if n ≤ e.number then e.withActive i none else e)
      | some none =>
        match limit with
        | .upTo a =>
          let (isOver, e) := e.isAt a
          (true, if isOver then e.withActive i none else e)
        | _ => (true, e)
      | none =>
        let (begins, e) := e.isAt a
        if !begins then (false, e)
        else
          let activeUpTo (n : Nat) : Editing :=
            if n ≤ e.number then e else e.withActive i (some (some n))
          (true, match limit with
            | .upTo (.line n) => activeUpTo n
            | .upTo _ => e.withActive i (some none)
            | .further count => activeUpTo (e.number + count)
            | .multiple n => activeUpTo (if n == 0 then 0 else (e.number + n - 1) / n * n))
  (isIn != scope.negated, e)

def advanced? (e : Editing) : Option Editing :=
  match e.left with
  | [] => none
  | (line, isWhole) :: left => some { e with space := line, isWhole, left, number := e.number + 1 }

/-! ### Replacing -/

def recased (c : Char) : Recasing → Char
  | .lower => c.toLower
  | .upper => c.toUpper
  | .keep => c

/-- The text that stands for what was found between two spots. -/
def replacement (pieces : List Filling) (a b : Spot) : Chars :=
  let add (state : Recasing × Recasing × Chars) (s : Chars) : Recasing × Recasing × Chars :=
    s.foldl (fun (one, all, done) c =>
      (.keep, all, recased c (if one == .keep then all else one) :: done)) state
  (pieces.foldl (fun state piece =>
    match piece with
    | .char c => add state [c]
    | .group 0 => add state (a.textTo b)
    | .group n => add state ((b.groups.lookup n).getD [])
    | .recase true target => (target, state.2)
    | .recase false target => (.keep, target, state.2.2)) (.keep, .keep, [])).2.2.reverse

/-- What a line becomes by a substitution behind a spot, and whether anything is replaced. `count`
parts have been found so far, the last of which ends at `last?`. The fuel bounds their number. -/
def replacedFrom (s : Substitution) (find : Spot → Option (Spot × Spot)) :
    Nat → Nat → Option Nat → Spot → Chars × Bool
  | 0, _, _, here => (here.rest, false)
  | fuel + 1, count, last?, here =>
    match find here with
    | none => (here.rest, false)
    | some (a, b) =>
      let isEmpty := a.passed == b.passed
      let isCounted := !(isEmpty && last? == some a.passed)
      let count := if isCounted then count + 1 else count
      let isReplaced := isCounted && (count == s.nth || (s.all && s.nth ≤ count))
      let middle := if isReplaced then replacement s.pieces a b else a.textTo b
      let front := here.textTo a ++ middle
      if isReplaced && !s.all then (front ++ b.rest, true)
      else if isEmpty then
        if b.rest.isEmpty then (front, isReplaced)
        else
          let (rest, more) := replacedFrom s find fuel count none (b.behind 1)
          (front ++ b.rest.take 1 ++ rest, isReplaced || more)
      else
        let (rest, more) := replacedFrom s find fuel count (some b.passed) b
        (front ++ rest, isReplaced || more)

def substituted (e : Editing) (s : Substitution) : Editing :=
  let (_, e) := e.found? s.what { rest := e.space }
  match e.sought? with
  | some { regex? := some r, folds } =>
    let (space, isReplaced) :=
      replacedFrom s (r.find? folds) (2 * e.space.length + 2) 0 none { rest := e.space }
    if !isReplaced then e
    else
      let e := { e with space, replaced := true }
      let e := (List.range s.prints).foldl (fun e _ => e.printed) e
      (s.file?.map e.writtenTo).getD e
  | _ => e

/-! ### Carrying out -/

inductive Turn where
  | goTo (i : Nat)
  /-- Goes on to the next line. -/
  | endLine (prints : Bool)
  /-- Begins anew with what is left of the line. -/
  | restart
  | quit (prints : Bool)

/-- A text in which nothing is hidden, in lines of at most seventy characters. -/
def plainly (s : Chars) : Chars :=
  let one (c : Char) : Chars :=
    let n := c.toNat
    match c with
    | '\\' => ['\\', '\\']
    | '\n' => ['\\', 'n']
    | '\t' => ['\\', 't']
    | '\r' => ['\\', 'r']
    | _ =>
      if n == 7 then ['\\', 'a']
      else if n == 8 then ['\\', 'b']
      else if n == 11 then ['\\', 'v']
      else if n == 12 then ['\\', 'f']
      else if 32 ≤ n && n ≤ 126 then [c]
      else '\\' :: [n / 64, n / 8 % 8, n % 8].flatMap ofNat
  let add (state : Nat × Chars) (c : Char) : Nat × Chars :=
    let shown := one c
    if 69 < state.1 + shown.length then (shown.length, state.2 ++ ['\\', '\n'] ++ shown)
    else (state.1 + shown.length, state.2 ++ shown)
  (s.foldl add (0, [])).2 ++ ['$']

/-- The position behind the block that begins in front of a position. The fuel bounds its length. -/
def behindBlock (script : EditScript) : Nat → Nat → Nat → Nat
  | 0, _, i => i
  | fuel + 1, depth, i =>
    match script[i]? with
    | none => i
    | some (_, .opened) => behindBlock script fuel (depth + 1) (i + 1)
    | some (_, .closed) => if depth == 0 then i + 1 else behindBlock script fuel (depth - 1) (i + 1)
    | some _ => behindBlock script fuel depth (i + 1)

def placeOf (script : EditScript) (name : Chars) : Nat :=
  if name.isEmpty then script.size
  else (script.findIdx? fun (_, edit) =>
    match edit with
    | .label other => other == name
    | _ => false).getD script.size

def act (files : Chars → Option Chars) (quiet : Bool) (script : EditScript) (i : Nat)
    (scope : Scope) (edit : Edit) (e : Editing) : Turn × Editing :=
  let on (e : Editing) : Turn × Editing := (.goTo (i + 1), e)
  let firstLine := e.space.takeWhile (· != '\n')
  match edit with
  | .opened | .closed | .label _ => on e
  | .branch when name =>
    let goes := match when with
      | .always => true
      | .ifReplaced => e.replaced
      | .unlessReplaced => !e.replaced
    let e := if when == .always then e else { e with replaced := false }
    if goes then (.goTo (placeOf script name), e) else on e
  | .append text => on { e with appended := text :: e.appended }
  | .insert text => on (if text.isEmpty then e else e.put text.dropLast true)
  | .change text =>
    let isInside := scope.limit?.isSome && !scope.negated && (e.active.lookup i).isSome
    let e := if isInside || text.isEmpty then e else e.put text.dropLast true
    (.endLine false, e)
  | .delete => (.endLine false, e)
  | .deleteFirst =>
    if e.space.contains '\n' then
      (.restart, { e with space := e.space.drop (firstLine.length + 1) })
    else (.endLine false, e)
  | .clear => on { e with space := [] }
  | .hold => on { e with kept := e.space, keptWhole := e.isWhole }
  | .holdMore =>
    on { e with kept := e.kept ++ '\n' :: e.space, keptWhole := e.keptWhole || e.isWhole }
  | .fetch => on { e with space := e.kept, isWhole := e.keptWhole }
  | .fetchMore =>
    on { e with space := e.space ++ '\n' :: e.kept, isWhole := e.isWhole || e.keptWhole }
  | .exchange =>
    on { e with space := e.kept, isWhole := e.keptWhole, kept := e.space, keptWhole := e.isWhole }
  | .next =>
    if e.left.isEmpty then (.quit true, e)
    else
      let e := (if quiet then e else e.printed).flushed
      on (e.advanced?.getD e)
  | .nextMore =>
    match e.flushed.advanced? with
    | none => (.quit true, e)
    | some next => on { next with space := e.space ++ '\n' :: next.space }
  | .print => on e.printed
  | .printFirst => on (e.put firstLine (e.isWhole || e.space.contains '\n'))
  | .printPlainly => on (e.put (plainly e.space) true)
  | .printNumber => on (e.put (ofNat e.number) true)
  | .quit prints status =>
    let e := if prints && !quiet then e.printed else e
    (.quit false, { if prints then e.completed else e with status })
  | .readFile name => on { e with appended := (files name).getD [] :: e.appended }
  | .writeFile name => on (e.writtenTo name)
  | .map old new =>
    on { e with space := e.space.map fun c => ((old.zip new).lookup c).getD c }
  | .substitute s => on (e.substituted s)

/-- Carries out edits from a position on, for this line and all that follow. The fuel bounds how
many edits are carried out. -/
def carryOut (files : Chars → Option Chars) (quiet : Bool) (script : EditScript) :
    Nat → Nat → Editing → Editing
  | 0, _, e => e
  | fuel + 1, i, e =>
    let goOn := carryOut files quiet script fuel
    let ended (prints : Bool) (e : Editing) : Editing :=
      (if prints && !quiet then e.printed else e).flushed
    if e.failed?.isSome then e
    else
      let (turn, e) := match script[i]? with
        | none => (Turn.endLine true, e)
        | some (scope, edit) =>
          match e.applies i scope, edit with
          | (true, e), edit => act files quiet script i scope edit e
          | (false, e), .opened => (.goTo (behindBlock script (script.size + 1) 0 (i + 1)), e)
          | (false, e), _ => (.goTo (i + 1), e)
      if e.failed?.isSome then e
      else match turn with
        | .goTo i => goOn i e
        | .quit prints => ended prints e
        | .restart => goOn 0 (ended false e)
        | .endLine prints =>
          let e := ended prints e
          match { e with replaced := false }.advanced? with
          | none => e
          | some e => goOn 0 e

end Editing

end TargetQuery.Script
