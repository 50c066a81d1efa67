import TargetQuery.Script.Utility.Basic

/-!
# Laying out lines

Programs that number lines, put lines beside each other, and break them.
-/

namespace TargetQuery.Script.Utility

/-- Numbers the lines of files: those that are not empty, all, or none. -/
def nl (zero : Chars) (arguments : List Chars) : Task Nat :=
  withOptions "p" "bhfilnsvw" zero arguments fun o => do
    let (content, status) ← gather zero o.operands
    let number (c : Char) (default : Nat) : Nat := ((o.value? c).bind natural?).getD default
    let width := number 'w' 6
    let separator := (o.value? 's').getD ['\t']
    let style := (o.value? 'b').getD ['t']
    let written (n : Nat) : Chars :=
      match o.value? 'n' with
      | some ['l', 'n'] => ofNat n ++ List.replicate (width - (ofNat n).length) ' '
      | some ['r', 'z'] => List.replicate (width - (ofNat n).length) '0' ++ ofNat n
      | _ => padded width (ofNat n)
    let step (state : Nat × List Chars) (line : Chars) : Nat × List Chars :=
      let isCounted := style == ['a'] || (style == ['t'] && !line.isEmpty)
      if isCounted then
        (state.1 + number 'i' 1, (written state.1 ++ separator ++ line) :: state.2)
      else (state.1, (List.replicate (width + separator.length) ' ' ++ line) :: state.2)
    printLines ((bareLines content).foldl step (number 'v' 1, [])).2.reverse
    pure status

def joinedBy (separators : Chars) (texts : List Chars) : Chars :=
  (texts.mapIdx fun i text =>
    if i == 0 then text
    else (separators[(i - 1) % separators.length]?).toList ++ text).flatten

/-- The members of lists beside each other. The fuel bounds the lengths. -/
def transposed : Nat → List (List Chars) → List (List Chars)
  | 0, _ => []
  | fuel + 1, columns =>
    if columns.all List.isEmpty then []
    else columns.map (·.headD []) :: transposed fuel (columns.map List.tail)

/-- The characters of separators, in which a backslash may stand in front. -/
def separatorsOf : Chars → Chars
  | '\\' :: 'n' :: rest => '\n' :: separatorsOf rest
  | '\\' :: 't' :: rest => '\t' :: separatorsOf rest
  | '\\' :: '0' :: rest => separatorsOf rest
  | '\\' :: '\\' :: rest => '\\' :: separatorsOf rest
  | c :: rest => c :: separatorsOf rest
  | [] => []

/-- Puts the lines of files beside each other, or all lines of each file. -/
def paste (zero : Chars) (arguments : List Chars) : Task Nat :=
  withOptions "s" "d" zero arguments fun o => do
    let names := if o.operands.isEmpty then [['-']] else o.operands
    let separators := separatorsOf ((o.value? 'd').getD ['\t'])
    let dashes := names.count ['-']
    let input ← if dashes == 0 then pure [] else do
      pure (bareLines ((← takeInput 0).toOption.getD []))
    let one (state : Nat × Option Chars × List (List Chars)) (name : Chars) :
        Task (Nat × Option Chars × List (List Chars)) := do
      let (seen, why?, columns) := state
      if name == ['-'] then
        -- Each dash takes its share of the lines of the input.
        let share := (input.mapIdx fun i line => (i, line)).filter fun p => p.1 % dashes == seen
        let lines := if o.has 's' then (if seen == 0 then input else []) else share.map (·.2)
        pure (seen + 1, why?, lines :: columns)
      else match ← contentOf name with
        | .ok content => pure (seen, why?, bareLines content :: columns)
        | .error failure => pure (seen, some (shown name ++ ": ".toList ++ reason failure), columns)
    let (_, why?, columns) ← names.foldlM one (0, none, [])
    match why?, o.has 's' with
    | some why, false =>
      complainAs zero why
      pure 1
    | why?, true =>
      if let some why := why? then complainAs zero why
      printLines (columns.reverse.map (joinedBy separators))
      pure (if why?.isSome then 1 else 0)
    | none, false =>
      let length := (columns.map List.length).foldl max 0
      printLines ((transposed (length + 1) columns.reverse).map (joinedBy separators))
      pure 0

/-- A line in pieces of a width, which may end behind blanks. The fuel bounds their number. -/
def folded (width : Nat) (atBlanks : Bool) : Nat → Chars → List Chars
  | 0, s => [s]
  | fuel + 1, s =>
    if s.length ≤ width then [s]
    else
      let front := s.take width
      let upToBlank := (front.reverse.dropWhile fun c => !isBlank c).length
      let count := if atBlanks && upToBlank != 0 then upToBlank else width
      s.take count :: folded width atBlanks fuel (s.drop count)

def fold (zero : Chars) (arguments : List Chars) : Task Nat :=
  withOptions "bs" "w" zero arguments fun o => do
    let width := max 1 (((o.value? 'w').bind natural?).getD 80)
    let (content, status) ← gather zero o.operands
    let pieces (line : Chars) : List Chars := folded width (o.has 's') (line.length + 1) line
    let text := ['\n'].intercalate ((bareLines content).flatMap pieces)
    print (if content.getLast? == some Ascii.newline then text ++ ['\n'] else text)
    pure status

end TargetQuery.Script.Utility
