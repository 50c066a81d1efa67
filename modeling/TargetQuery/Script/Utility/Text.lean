import TargetQuery.Script.Format
import TargetQuery.Script.Utility.Basic

/-!
# Utilities for text

Programs that copy text: all of it, its beginning or its end, its lines in another order, or some of
its characters; and programs that print text of their own.
-/

namespace TargetQuery.Script.Utility

/-- Prints its arguments. Options in front ask for escapes, or for no line end. -/
def echo (_ : Chars) (arguments : List Chars) : Task Nat := do
  let isOption (a : Chars) : Bool :=
    match a with
    | '-' :: c :: rest => (c :: rest).all "neE".toList.contains
    | _ => false
  let options := (arguments.takeWhile isOption).flatten
  let joined := [' '].intercalate (arguments.dropWhile isOption)
  let escapes := (options.filter fun c => c == 'e' || c == 'E').getLast? == some 'e'
  let style : EscapeStyle := { isUtility := true, needsZero := true }
  let (text, isOver) := if escapes then unescape style (joined.length + 1) [] joined
    else (joined, false)
  print (if isOver || options.contains 'n' then text else text ++ ['\n'])
  pure 0

def printf (zero : Chars) (arguments : List Chars) : Task Nat := do
  match if arguments.head? == some ['-', '-'] then arguments.tail else arguments with
  | [] => refuse zero "missing operand".toList
  | form :: arguments =>
    let done := format true form arguments
    print done.shown.reverse
    done.complaints.reverse.forM (complainAs zero)
    match done.error?, done.isOver, done.arguments with
    | some why, _, _ =>
      complainAs zero why
      pure 1
    | none, false, a :: _ =>
      complainAs zero ("warning: ignoring excess arguments, starting with ".toList ++ quoted a)
      pure (if done.failed then 1 else 0)
    | none, _, _ => pure (if done.failed then 1 else 0)

/-- Copies files to the output. Lines may be numbered, and what cannot be seen made visible. -/
def cat (zero : Chars) (arguments : List Chars) : Task Nat :=
  withOptions "AbeEnstTuv" "" zero arguments fun o => do
    let marksEnds := o.has 'E' || o.has 'A' || o.has 'e'
    let marksTabs := o.has 'T' || o.has 'A' || o.has 't'
    let numbers := o.has 'n' || o.has 'b'
    if !marksEnds && !marksTabs && !numbers && !o.has 's' then
      let isClosed := (← get).stream? 0 |>.isNone
      let status ← forFiles zero o.operands [] fun _ content => do
        let _ ← put 1 content
      if isClosed && (o.operands.isEmpty || o.operands.contains ['-']) then
        complainAs zero "closing standard input: Bad file descriptor".toList
      pure status
    else
      let (content, status) ← gather zero o.operands
      let step (state : Nat × Bool × List Bytes) (line : Bytes) : Nat × Bool × List Bytes :=
        let (n, wasEmpty, done) := state
        let isEmpty := line == [Ascii.newline]
        if o.has 's' && wasEmpty && isEmpty then (n, true, done)
        else
          let counted := numbers && !(o.has 'b' && isEmpty)
          let front := if counted then toBytes (padded 6 (ofNat (n + 1)) ++ ['\t']) else []
          let body := line.flatMap fun b =>
            if b == Ascii.newline && marksEnds then [0x24, b]
            else if b == Ascii.tab && marksTabs then [0x5E, 0x49]
            else [b]
          (if counted then n + 1 else n, isEmpty, (front ++ body) :: done)
      let (_, _, lines) := (linesOf content).foldl step (0, false, [])
      let _ ← put 1 lines.reverse.flatten
      pure status

/-- How much of a text is copied. -/
structure Extent where
  count : Nat
  inBytes : Bool := false
  /-- Counted from the other end than usual. -/
  fromOther : Bool := false

def extentOf (mark : Char) (o : Options) : Except Chars Extent := do
  let read (inBytes : Bool) (value : Chars) : Except Chars Extent :=
    let fromOther := value.head? == some mark
    let signed := value.dropWhile isSpace
    let hasSign := signed.head? == some '-' || signed.head? == some '+'
    let digits := if hasSign then signed.tail else signed
    match natural? digits with
    | some count => .ok { count, inBytes, fromOther }
    | none =>
      let kind := if inBytes then "bytes" else "lines"
      .error (("invalid number of " ++ kind ++ ": ").toList ++ quoted value)
  match o.values.getLast? with
  | some (c, value) => read (c == 'c') value
  | none => .ok { count := 10 }

/-- The number of lines given as an option of its own. -/
def withOldCount : List Chars → List Chars
  | ('-' :: d :: more) :: rest =>
    if (d :: more).all Char.isDigit then ['-', 'n'] :: (d :: more) :: rest
    else ('-' :: d :: more) :: rest
  | arguments => arguments

/-- Copies the part of each file that is wanted, under the names of the files if there are several.
-/
def copyParts (zero : Chars) (o : Options) (part : Bytes → Bytes) : Task Nat := do
  let titled := (o.operands.length > 1 && !o.has 'q') || o.has 'v'
  let showTitle (isFirst : Bool) (name : Chars) : Task Unit := do
    if titled then
      let title := if name == ['-'] then "standard input".toList else name
      print ((if isFirst then [] else ['\n']) ++ "==> ".toList ++ title ++ " <==\n".toList)
  let one (state : Bool × Nat) (name : Chars) : Task (Bool × Nat) := do
    match ← contentOf name with
    | .ok content =>
      showTitle state.1 name
      let _ ← put 1 (part content)
      pure (false, state.2)
    | .error .isADirectory =>
      showTitle state.1 name
      complainAs zero ("error reading ".toList ++ quoted name ++ ": Is a directory".toList)
      pure (false, 1)
    | .error failure =>
      complainAs zero ("cannot open ".toList ++ quoted name ++ " for reading: ".toList
        ++ reason failure)
      pure (state.1, 1)
  let names := if o.operands.isEmpty then [['-']] else o.operands
  let (_, status) ← names.foldlM one (true, 0)
  pure status

def unitsOf (inBytes : Bool) (content : Bytes) : List Bytes :=
  if inBytes then content.map ([·]) else linesOf content

def head (zero : Chars) (arguments : List Chars) : Task Nat :=
  withOptions "qv" "nc" zero (withOldCount arguments) fun o =>
    match extentOf '-' o with
    | .error why => do
      complainAs zero why
      pure 1
    | .ok e => copyParts zero o fun content =>
      let units := unitsOf e.inBytes content
      (units.take (if e.fromOther then units.length - e.count else e.count)).flatten

def tail (zero : Chars) (arguments : List Chars) : Task Nat :=
  withOptions "qv" "nc" zero (withOldCount arguments) fun o =>
    match extentOf '+' o with
    | .error why => do
      complainAs zero why
      pure 1
    | .ok e => copyParts zero o fun content =>
      let units := unitsOf e.inBytes content
      (units.drop (if e.fromOther then e.count - 1 else units.length - e.count)).flatten

def tac (zero : Chars) (arguments : List Chars) : Task Nat :=
  withOptions "" "" zero arguments fun o => do
    let one (status : Nat) (name : Chars) : Task Nat := do
      match ← contentOf name with
      | .ok content =>
        let _ ← put 1 (linesOf content).reverse.flatten
        pure status
      | .error .isADirectory =>
        complainAs zero (shown name ++ ": read error: Invalid argument".toList)
        pure 1
      | .error failure =>
        complainAs zero ("failed to open ".toList ++ quoted name ++ " for reading: ".toList
          ++ reason failure)
        pure 1
    (if o.operands.isEmpty then [['-']] else o.operands).foldlM one 0

def rev (_ : Chars) (arguments : List Chars) : Task Nat :=
  withOptions "" "" "rev".toList arguments fun o => do
    let one (status : Nat) (name : Chars) : Task Nat := do
      match ← contentOf name with
      | .ok content =>
        printLines ((bareLines content).map List.reverse)
        pure status
      | .error failure =>
        complainAs "rev".toList ("cannot open ".toList ++ name ++ ": ".toList ++ reason failure)
        pure 1
    (if o.operands.isEmpty then [['-']] else o.operands).foldlM one 0

def wordCount (s : Chars) : Nat :=
  (s.foldl (fun (count, within) c =>
    if isSpace c then (count, false) else (if within then count else count + 1, true))
    ((0, false) : Nat × Bool)).1

/-- The length of the longest line of a text, with tabs up to the next multiple of eight. -/
def longestLine (content : Bytes) : Nat :=
  let width (line : Bytes) : Nat := line.foldl (fun n b =>
    if b == Ascii.tab then n / 8 * 8 + 8 else if Ascii.space ≤ b && b < Ascii.delete then n + 1
    else n) 0
  (linesOf content).foldl (fun n line => max n (width line)) 0

def wc (zero : Chars) (arguments : List Chars) : Task Nat :=
  withOptions "lwcmL" "" zero arguments fun o => do
    let all := o.letters.isEmpty
    let wanted (c : Char) : Bool := o.has c || all
    let counts (content : Bytes) : List Nat :=
      (if wanted 'l' then [content.count Ascii.newline] else [])
        ++ (if wanted 'w' then [wordCount (ofBytes content)] else [])
        ++ (if wanted 'c' || o.has 'm' then [content.length] else [])
        ++ (if o.has 'L' then [longestLine content] else [])
    let s ← get
    let sizes := o.operands.map fun name => (s.world.files.read s.world.here (Shell.pathOf name))
    let total := sumOf (sizes.map fun r => (r.toOption.getD []).length)
    let known := match o.operands, s.stream? 0 with
      | [], some (_, .file place ..) => some (s.contentAt place).length
      | [], _ => none
      | _, _ => if o.operands.any (· == ['-']) then none
        else if o.operands.any (s.world.files.isDirectory s.world.here ∘ Shell.pathOf) then none
        else some total
    let width :=
      if (counts []).length == 1 && o.operands.length ≤ 1 then 1
      else match known with
        | some n => (ofNat n).length
        | none => 7
    let line (counts : List Nat) (name : Chars) : Chars :=
      let columns := [' '].intercalate (counts.map fun n => padded width (ofNat n))
      columns ++ (if name.isEmpty then [] else ' ' :: name) ++ ['\n']
    let grow (sums counts : List Nat) : List Nat :=
      if o.has 'L' then
        List.zipWith (· + ·) sums.dropLast counts.dropLast
          ++ [max (sums.getLast?.getD 0) (counts.getLast?.getD 0)]
      else List.zipWith (· + ·) sums counts
    let one (state : List Nat × Bool) (name : Chars) : Task (List Nat × Bool) := do
      let found := if name.isEmpty then ['-'] else name
      match ← contentOf found with
      | .ok content =>
        print (line (counts content) name)
        pure (grow state.1 (counts content), state.2)
      | .error failure =>
        complainAs zero (shown name ++ ": ".toList ++ reason failure)
        if failure == .isADirectory then print (line (counts []) name)
        pure (state.1, true)
    let names := if o.operands.isEmpty then [[]] else o.operands
    let (sums, failed) ← names.foldlM one (counts [], false)
    if names.length > 1 then print (line sums "total".toList)
    pure (if failed then 1 else 0)

/-- The characters that a description of a set names. The fuel bounds its length. -/
def setOf : Nat → Chars → Chars
  | 0, _ => []
  | _ + 1, [] => []
  | fuel + 1, '[' :: ':' :: rest =>
    let name := rest.takeWhile Char.isAlpha
    match rest.drop name.length with
    | ':' :: ']' :: behind =>
      let members := (List.range 256).map Char.ofNat |>.filter (isKind (String.ofList name))
      members ++ setOf fuel behind
    | _ => '[' :: ':' :: setOf fuel rest
  | fuel + 1, low :: '-' :: high :: rest =>
    ((List.range (high.toNat + 1)).drop low.toNat).map Char.ofNat ++ setOf fuel rest
  | fuel + 1, '\\' :: rest =>
    match escape { isArgument := false } rest with
    | some ([c], rest) => c :: setOf fuel rest
    | some (_, rest) => setOf fuel rest
    | none => []
  | fuel + 1, c :: rest => c :: setOf fuel rest
where
  /-- Whether a character belongs to a class. -/
  isKind (name : String) (c : Char) : Bool :=
    match name with
    | "alpha" => c.isAlpha
    | "digit" => c.isDigit
    | "alnum" => c.isAlphanum
    | "upper" => c.isUpper
    | "lower" => c.isLower
    | "space" => isSpace c
    | "blank" => isBlank c
    | "punct" => 33 ≤ c.toNat && c.toNat ≤ 126 && !c.isAlphanum
    | _ => false

/-- The first range in a description of a set whose end comes before its start. -/
def reversedRange? : Chars → Option Chars
  | low :: '-' :: high :: rest =>
    if high < low then some [low, '-', high] else reversedRange? rest
  | _ :: rest => reversedRange? rest
  | [] => none

/-- Keeps one of equal characters beside each other, if they belong to a set. -/
def squeezed (set : Chars) (s : Chars) : Chars :=
  let step (done : Chars) (c : Char) : Chars :=
    if done.head? == some c && set.contains c then done else c :: done
  (s.foldl step []).reverse

def tr (zero : Chars) (arguments : List Chars) : Task Nat :=
  withOptions "cCdst" "" zero arguments fun o => do
    let sets := o.operands.map fun s => setOf (s.length + 1) s
    let most := if o.has 'd' && !o.has 's' then 1 else 2
    match sets, o.operands.drop most, o.operands.findSome? reversedRange? with
    | [], _, _ => refuse zero "missing operand".toList
    | _, a :: _, _ =>
      complainAs zero ("extra operand ".toList ++ quoted a)
      if most == 1 && o.operands.length == 2 then
        complain "Only one string may be given when deleting without squeezing repeats.\n".toList
      complain ("Try '".toList ++ zero ++ " --help' for more information.\n".toList)
      pure 1
    | _, [], some range =>
      complainAs zero ("range-endpoints of ".toList ++ quoted range
        ++ " are in reverse collating sequence order".toList)
      pure 1
    | first :: more, [], none =>
      let all := (List.range 256).map Char.ofNat
      let first := if o.has 'c' || o.has 'C' then all.filter fun c => !first.contains c else first
      let second := more.head?
      let input := ofBytes ((← takeInput 0).toOption.getD [])
      let kept := if o.has 'd' then input.filter fun c => !first.contains c else input
      match second with
      | some second =>
        let last := second.getLast?.getD ' '
        let table := first.zip (second ++ List.replicate (first.length - second.length) last)
        let table := table.reverse
        let mapped := if o.has 'd' then kept else kept.map fun c => (table.lookup c).getD c
        print (if o.has 's' then squeezed second mapped else mapped)
        pure 0
      | none =>
        if o.has 'd' then
          print kept
          pure 0
        else if o.has 's' then
          print (squeezed first kept)
          pure 0
        else
          let given := (o.operands.headD [])
          complainAs zero ("missing operand after ".toList ++ quoted given)
          complain "Two strings must be given when translating.\n".toList
          complain ("Try '".toList ++ zero ++ " --help' for more information.\n".toList)
          pure 1

def inRanges (ranges : Chars) (n : Nat) : Bool :=
  (splitAt ',' ranges).any fun range =>
    match splitAt '-' range with
    | [one] => natural? one == some n
    | [low, high] => (natural? low).getD 1 ≤ n && (natural? high).all (n ≤ ·)
    | _ => false

/-- What is wrong with a list of ranges, if anything is. -/
def rangeMistake? (ofFields : Bool) (ranges : Chars) : Option Chars :=
  let unit := if ofFields then "fields are" else "byte/character positions are"
  let wrong (text : Chars) : Chars :=
    (if ofFields then "invalid field value " else "invalid byte/character position ").toList
      ++ quoted text
  let ofNumber (s : Chars) : Option Chars :=
    match natural? s with
    | some 0 => some (unit ++ " numbered from 1").toList
    | some _ => none
    | none => some (wrong ranges)
  (splitAt ',' ranges).findSome? fun range =>
    match splitAt '-' range with
    | [one] => ofNumber one
    | [[], []] => some ("invalid range with no endpoint: -".toList)
    | [low, []] => ofNumber low
    | [[], high] => ofNumber high
    | [low, high] =>
      (ofNumber low).orElse fun _ => (ofNumber high).orElse fun _ =>
        if (natural? high).getD 0 < (natural? low).getD 0 then
          some "invalid decreasing range".toList
        else none
    | _ => some (wrong ranges)

def cutMistake? (o : Options) : Option Chars :=
  let lists := o.values.filter fun v => v.1 != 'd'
  match lists with
  | [] => some "you must specify a list of bytes, characters, or fields".toList
  | [(c, ranges)] =>
    (rangeMistake? (c == 'f') ranges).orElse fun _ =>
      if (o.value? 'd').any fun d => 1 < d.length then
        some "the delimiter must be a single character".toList
      else if c != 'f' && (o.value? 'd').isSome then
        some "an input delimiter may be specified only when operating on fields".toList
      else if c != 'f' && o.has 's' then
        some ("suppressing non-delimited lines makes sense\n"
          ++ "\tonly when operating on fields").toList
      else none
  | _ => some "only one list may be specified".toList

/-- Keeps some characters or fields of each line. -/
def cut (zero : Chars) (arguments : List Chars) : Task Nat :=
  withOptions "ns" "bcfd" zero arguments fun o => do
    let separator := ((o.value? 'd').bind List.head?).getD '\t'
    let pick (items : List Chars) (ranges : Chars) : List Chars :=
      (items.zipIdx.filter fun item => inRanges ranges (item.2 + 1)).map (·.1)
    let keep? (line : Chars) : Option Chars :=
      match o.value? 'f' with
      | some ranges =>
        if line.contains separator then
          some ([separator].intercalate (pick (splitAt separator line) ranges))
        else if o.has 's' then none
        else some line
      | none =>
        let ranges := ((o.value? 'c').orElse fun _ => o.value? 'b').getD []
        some (pick (line.map ([·])) ranges).flatten
    match cutMistake? o with
    | some why => refuse zero why
    | none => forFiles zero o.operands [] fun _ content =>
      printLines ((bareLines content).filterMap keep?)

/-- Lines in the order that options ask for, as texts or as numbers. -/
def orderedLines (o : Options) (lines : List Chars) : List Chars :=
  let key (line : Chars) : Chars :=
    match (o.value? 'k').bind fun k => natural? (k.takeWhile Char.isDigit) with
    | none => line
    | some n =>
      let fields := match (o.value? 't').bind List.head? with
        | some c => splitAt c line
        | none => (splitAt ' ' line).filter (!·.isEmpty)
      (fields[n - 1]?).getD []
  let numbers := o.has 'n' || ((o.value? 'k').getD []).contains 'n'
  let fold (s : Chars) : Chars := if o.has 'f' then s.map Char.toUpper else s
  let before (a b : Chars) : Bool :=
    let m := (IntegerRead.ofChars (some 10) (key a)).whole
    let n := (IntegerRead.ofChars (some 10) (key b)).whole
    if numbers && m != n then m < n
    else if numbers && o.has 'u' then true
    else if fold (key a) != fold (key b) then
      String.ofList (fold (key a)) < String.ofList (fold (key b))
    else if o.has 'u' || o.has 's' then true
    else String.ofList a ≤ String.ofList b
  let ordered := lines.mergeSort fun a b => if o.has 'r' then before b a else before a b
  let same (a b : Chars) : Bool := before a b && before b a
  if o.has 'u' then
    (ordered.foldl (fun done line =>
      if done.head?.any (same line) then done else line :: done) []).reverse
  else ordered

/-- Why a file cannot be sorted, if that is so. -/
def unsortable? (s : Shell) (name : Chars) : Option Chars :=
  if name == ['-'] || (streamOf? name).isSome then none
  else match s.world.files.read s.world.here (Shell.pathOf name) with
    | .ok _ => none
    | .error failure =>
      let what := if failure == .isADirectory then "read failed: " else "cannot read: "
      some (what.toList ++ shown name ++ ": ".toList ++ reason failure)

def sort (zero : Chars) (arguments : List Chars) : Task Nat :=
  withOptions "bdfnrus" "kto" zero arguments (fun o => do
    match o.operands.findSome? (unsortable? (← get)) with
    | some why =>
      complainAs zero why
      pure 2
    | none =>
      let (content, _) ← gather zero o.operands
      let lines := orderedLines o (bareLines content)
      match o.value? 'o' with
      | some name =>
        let text := toBytes (lines.flatMap (· ++ ['\n']))
        let status ← writeTo zero "open failed: " name .overwrite text
        pure (2 * status)
      | none =>
        printLines lines
        pure 0) 2

/-- Keeps one of equal lines beside each other. -/
def uniq (zero : Chars) (arguments : List Chars) : Task Nat :=
  withOptions "cdui" "fsw" zero arguments fun o => do
    let (content, status) ← match o.operands.head? with
      | none => gather zero []
      | some name => do
        match ← contentOf name with
        | .ok content => pure (content, 0)
        | .error .isADirectory =>
          complainAs zero ("error reading ".toList ++ quoted name ++ ": Is a directory".toList)
          pure ([], 1)
        | .error failure =>
          complainAs zero (shown name ++ ": ".toList ++ reason failure)
          pure ([], 1)
    let step (done : List (Nat × Chars)) (line : Chars) : List (Nat × Chars) :=
      match done with
      | (n, other) :: rest => if other == line then (n + 1, other) :: rest else (1, line) :: done
      | [] => [(1, line)]
    let groups := ((bareLines content).foldl step []).reverse.filter fun g =>
      (!o.has 'd' || 1 < g.1) && (!o.has 'u' || g.1 == 1)
    let lines := groups.map fun g =>
      if o.has 'c' then padded 7 (ofNat g.1) ++ ' ' :: g.2 else g.2
    match o.operands.drop 1 with
    | a :: b :: _ => refuse zero ("extra operand ".toList ++ quoted (if a.isEmpty then a else b))
    | [name] =>
      let text := toBytes (lines.flatMap (· ++ ['\n']))
      pure (max status (← writeTo zero "" name .overwrite text))
    | [] =>
      printLines lines
      pure status

/-- A decimal number as a whole number of units, and how many places the units are behind the point.
-/
def decimal? (s : Chars) : Option (Int × Nat) :=
  let s := if s.head? == some '+' then s.tail else s
  let body := if s.head? == some '-' then s.tail else s
  let mantissa := body.takeWhile fun c => c != 'e' && c != 'E'
  let power := (body.drop mantissa.length).tail
  let front := mantissa.takeWhile (· != '.')
  let places := (mantissa.drop front.length).tail
  let digits := front ++ places
  let exponent? := if mantissa.length == body.length then some 0 else whole? power
  match exponent? with
  | none => none
  | some exponent =>
    if digits.isEmpty || !digits.all Char.isDigit || 400 < exponent.natAbs then none
    else
      let size := Int.ofNat (ofDigits 10 digits)
      let size := if s.head? == some '-' then -size else size
      let left := Int.ofNat places.length - exponent
      some (if left < 0 then (size * Int.pow 10 (-left).toNat, 0) else (size, left.toNat))

/-- A number of units with a point in front of the last places. -/
def fixed (places : Nat) (n : Int) : Chars :=
  let digits := ofNat n.natAbs
  let digits := List.replicate (places + 1 - digits.length) '0' ++ digits
  let front := digits.length - places
  (if n < 0 then ['-'] else []) ++ digits.take front
    ++ (if places == 0 then [] else '.' :: digits.drop front)

def sequence (wide : Bool) (low step high : Int × Nat) : List Chars :=
  let places := max low.2 step.2
  let fine := max places high.2
  let units (n : Int × Nat) : Int := n.1 * Int.pow 10 (fine - n.2)
  let (first, gap, last) := (units low, units step, units high)
  let isNone := (0 < gap && last < first) || (gap < 0 && first < last)
  let count := if isNone then 0 else ((last - first).tdiv gap + 1).toNat
  let text (n : Int) : Chars := fixed places (n.tdiv (Int.pow 10 (fine - places)))
  let width := max (text first).length (text last).length
  let fill (s : Chars) : Chars :=
    let zeros := List.replicate (width - s.length) '0'
    match s with
    | '-' :: digits => '-' :: zeros ++ digits
    | digits => zeros ++ digits
  (List.range count).map fun (i : Nat) =>
    let shown := text (first + i * gap)
    if wide then fill shown else shown

structure SequenceOptions where
  separator : Chars := ['\n']
  wide : Bool := false

/-- The options in front of the numbers, which may have a sign, and the numbers. -/
def sequenceOptions (o : SequenceOptions) : List Chars → Except Chars (SequenceOptions × List Chars)
  | ['-', '-'] :: rest => .ok (o, rest)
  | ['-', 's'] :: separator :: rest => sequenceOptions { o with separator } rest
  | ['-', 's'] :: [] => .error ("option requires an argument -- ".toList ++ quoted ['s'])
  | ('-' :: 's' :: c :: separator) :: rest =>
    sequenceOptions { o with separator := c :: separator } rest
  | ['-', 'w'] :: rest => sequenceOptions { o with wide := true } rest
  | ('-' :: c :: more) :: rest =>
    if c.isDigit || c == '.' then .ok (o, ('-' :: c :: more) :: rest)
    else if c == '-' then .error ("unrecognized option ".toList ++ quoted ('-' :: c :: more))
    else .error ("invalid option -- ".toList ++ quoted [c])
  | rest => .ok (o, rest)

def seq (zero : Chars) (arguments : List Chars) : Task Nat := do
  match sequenceOptions {} arguments with
  | .error why => refuse zero why
  | .ok (o, operands) =>
    let printed (low step high : Int × Nat) : Task Nat := do
      if step.1 == 0 then
        refuse zero ("invalid Zero increment value: ".toList ++ quoted (operands.getD 1 []))
      else
        let numbers := sequence o.wide low step high
        if !numbers.isEmpty then print (o.separator.intercalate numbers ++ ['\n'])
        pure 0
    match operands[3]?, operands.find? fun a => (decimal? a).isNone with
    | some a, _ => refuse zero ("extra operand ".toList ++ quoted a)
    | none, some a => refuse zero ("invalid floating point argument: ".toList ++ quoted a)
    | none, none =>
      match operands.filterMap decimal? with
      | [high] => printed (1, 0) (1, 0) high
      | [low, high] => printed low (1, 0) high
      | [low, step, high] => printed low step high
      | _ => refuse zero "missing operand".toList

/-- Copies its input to the output and to files. -/
def tee (zero : Chars) (arguments : List Chars) : Task Nat :=
  withOptions "ai" "" zero arguments fun o => do
    let input := (← takeInput 0).toOption.getD []
    let _ ← put 1 input
    let one (status : Nat) (name : Chars) : Task Nat := do
      let opening := if o.has 'a' then .append else .overwrite
      pure (max status (← writeTo zero "" name opening input))
    o.operands.foldlM one 0

/-- Says yes, as often as anybody may want to hear it. -/
def yes (_ : Chars) (arguments : List Chars) : Task Nat := do
  let word := if arguments.isEmpty then ['y'] else [' '].intercalate arguments
  print (List.replicate 4096 (word ++ ['\n'])).flatten
  pure 0

end TargetQuery.Script.Utility
