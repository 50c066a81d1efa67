import TargetQuery.Script.Pattern

/-!
# Regular expressions

An expression describes parts of texts. From a spot in a text it leads to the spots at which a part
may end that it describes. Of all parts of a text that an expression describes, the first one is
found, and of those that begin at the same spot the longest; and its parts in turn are as long as
they can be, from the first one on.
-/

namespace TargetQuery.Script

/-- What a spot may be, whatever characters are around it. -/
inductive Edge where
  | start
  | finish
  | wordStart
  | wordFinish
  /-- The start or the end of a word, or neither of them. -/
  | wordEdge (negated : Bool)
  | notBehindWord
  | notBeforeWord
deriving DecidableEq, Repr

/-- A description of parts of texts. -/
inductive Regex where
  | nothing
  | oneOf (negated : Bool) (members : List Member)
  | edge (e : Edge)
  | group (number : Nat) (r : Regex)
  | both (a b : Regex)
  | either (a b : Regex)
  | repeated (r : Regex) (least : Nat) (most? : Option Nat)
  /-- The text of a group once more. -/
  | again (number : Nat)
deriving Repr

/-- A spot in a text: what is behind it, and the texts of the groups on the way. -/
structure Spot where
  before? : Option Char := none
  passed : Nat := 0
  rest : Chars
  groups : List (Nat × Chars) := []

namespace Spot

/-- Whether two spots differ in nothing that matters for what follows. -/
def isLike (s t : Spot) : Bool := s.passed == t.passed && s.groups == t.groups

/-- The spots in the order in which they are wanted: those further on first, and of those that are
alike only the first one. -/
def ordered (spots : List Spot) : List Spot :=
  match spots with
  | [] | [_] => spots
  | _ =>
    let kept := spots.foldl (fun kept s => if kept.any s.isLike then kept else s :: kept) []
    kept.reverse.mergeSort fun s t => t.passed ≤ s.passed

def behind (s : Spot) (count : Nat) : Spot :=
  match count with
  | 0 => s
  | n + 1 =>
    { s with
      before? := (s.rest.drop n).head?, passed := s.passed + count, rest := s.rest.drop count }

def textTo (s t : Spot) : Chars := s.rest.take (t.passed - s.passed)

end Spot

def Edge.holds (s : Spot) (e : Edge) : Bool :=
  let isBehindWord := s.before?.any isNameChar
  let isBeforeWord := s.rest.head?.any isNameChar
  match e with
  | .start => s.passed == 0
  | .finish => s.rest.isEmpty
  | .wordStart => !isBehindWord && isBeforeWord
  | .wordFinish => isBehindWord && !isBeforeWord
  | .wordEdge negated => (isBehindWord != isBeforeWord) != negated
  | .notBehindWord => !isBehindWord
  | .notBeforeWord => !isBeforeWord

namespace Regex

def exactly (c : Char) : Regex := .oneOf false [.range c c]

def anyOne : Regex := .oneOf true []

/-- Whether a character is one of some, or its other case is if cases are not told apart. -/
def isAmong (folds : Bool) (members : List Member) (c : Char) : Bool :=
  members.any fun m =>
    m.accepts c || (folds && (m.accepts c.toLower || m.accepts c.toUpper))

/-- Where repetition may end behind a spot, after `n` rounds; and what has been looked at. A round
is followed by all others that are possible before one is tried that is wanted less. Rounds that do
not leave a spot are of no use once there are enough; before that, they leave the texts of groups as
they are unless the number of rounds is bounded. The fuel bounds the number of rounds. -/
def rounds (step : Spot → List Spot) (least : Nat) (most? : Option Nat) :
    Nat → Nat → List (Nat × Spot) → Spot → List Spot × List (Nat × Spot)
  | 0, _, seen, _ => ([], seen)
  | fuel + 1, n, seen, s =>
    let round := if most?.isSome then n else min n least
    if seen.any fun t => t.1 == round && s.isLike t.2 then ([], seen)
    else
      let next? (t : Spot) : Option Spot :=
        if t.passed != s.passed then some t
        else if least ≤ n then none
        else some (if n == 0 || most?.isSome then t else s)
      let nexts := if most?.all (n < ·) then (step s).filterMap next? else []
      let (further, seen) := nexts.foldl (fun (found, seen) t =>
        let (more, seen) := rounds step least most? fuel (n + 1) seen t
        (found ++ more, seen)) ([], (round, s) :: seen)
      (if least ≤ n then further ++ [s] else further, seen)

/-- Where a part may end that begins at a spot, the most wanted first. -/
def ends (folds : Bool) : Regex → Spot → List Spot
  | .nothing, s => [s]
  | .oneOf negated members, s =>
    match s.rest with
    | c :: _ => if isAmong folds members c != negated then [s.behind 1] else []
    | [] => []
  | .edge e, s => if e.holds s then [s] else []
  | .group number r, s =>
    (ends folds r s).map fun t =>
      { t with groups := (number, s.textTo t) :: t.groups.filter (·.1 != number) }
  | .both a b, s => Spot.ordered ((ends folds a s).flatMap (ends folds b))
  | .either a b, s => Spot.ordered (ends folds a s ++ ends folds b s)
  | .repeated r least most?, s =>
    Spot.ordered (rounds (ends folds r) least most? (least + s.rest.length + 2) 0 [] s).1
  | .again number, s =>
    match s.groups.lookup number with
    | none => []
    | some text =>
      let part := s.rest.take text.length
      let isSame := part == text || (folds && part.map Char.toLower == text.map Char.toLower)
      if isSame then [s.behind text.length] else []

/-- Where the longest part ends that begins at a spot. -/
def longest? (folds : Bool) (r : Regex) (s : Spot) : Option Spot :=
  (ends folds r s).foldl (fun best? t =>
    match best? with
    | some best => if best.passed < t.passed then some t else best?
    | none => some t) none

/-- Where the first part begins, at some spot or behind it, and where it ends. The fuel bounds how
many spots there are. -/
def findFrom (folds : Bool) (r : Regex) : Nat → Spot → Option (Spot × Spot)
  | 0, _ => none
  | fuel + 1, s =>
    match longest? folds r s with
    | some t => some (s, t)
    | none => if s.rest.isEmpty then none else findFrom folds r fuel (s.behind 1)

/-- Where the first part of a text begins that is described, and where it ends. -/
def find? (folds : Bool) (r : Regex) (s : Spot) : Option (Spot × Spot) :=
  findFrom folds r (s.rest.length + 1) { s with groups := [] }

def groupCount : Regex → Nat
  | .group _ r => r.groupCount + 1
  | .both a b | .either a b => a.groupCount + b.groupCount
  | .repeated r _ _ => r.groupCount
  | _ => 0

end Regex

end TargetQuery.Script
