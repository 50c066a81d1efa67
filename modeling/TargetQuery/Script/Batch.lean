import TargetQuery.Script.Utility.Basic

/-!
# Batches of commands

A text is cut into items, which are given to a command as arguments: all of them at once, or some of
them at a time. Where an item stands for a mark in the command, each line is an item.
-/

namespace TargetQuery.Script

/-- How items are cut and given to a command. -/
structure BatchOptions where
  /-- The character behind each item, if items are not words. -/
  stop? : Option Char := none
  /-- How many items, or lines of them, are given to one command. -/
  most? : Option Nat := none
  lines? : Option Nat := none
  /-- The text in the place of which items are put. -/
  mark? : Option Chars := none
  /-- Whether nothing is run without items. -/
  needsItems : Bool := false
  /-- Whether commands are shown before they run. -/
  traced : Bool := false
  command : List Chars := []

def countFor (option : Char) (value : Chars) : Except Chars Nat :=
  match natural? value with
  | some 0 =>
    .error ("value 0 for -".toList ++ option :: " option should be >= 1".toList)
  | some n => .ok n
  | none =>
    .error ("invalid number \"".toList ++ value ++ "\" for -".toList ++ option :: " option".toList)

def BatchOptions.withValue (o : BatchOptions) (option : Char) (value : Chars) :
    Except Chars BatchOptions := do
  match option with
  | 'n' => return { o with most? := some (← countFor 'n' value), lines? := none, mark? := none }
  | 'L' => return { o with lines? := some (← countFor 'L' value), most? := none, mark? := none }
  | 'I' => return { o with mark? := some value, most? := none, lines? := none }
  | 'd' =>
    return { o with stop? := some (match value with
      | ['\\', 'n'] => '\n'
      | ['\\', 't'] => '\t'
      | ['\\', '0'] => Char.ofNat 0
      | value => value.headD '\n') }
  | _ => return o

/-- Reads the letters of an option; the last one may want the next argument as its value. -/
def readBatchLetters : BatchOptions → Chars → Except Chars (BatchOptions × Option Char)
  | o, [] => .ok (o, none)
  | o, c :: rest =>
    match c with
    | '0' => readBatchLetters { o with stop? := some (Char.ofNat 0) } rest
    | 'r' => readBatchLetters { o with needsItems := true } rest
    | 't' => readBatchLetters { o with traced := true } rest
    | 'x' => readBatchLetters o rest
    | c =>
      if !"nLIdPsE".toList.contains c then
        .error ("invalid option -- ".toList ++ Utility.quoted [c])
      else if rest.isEmpty then .ok (o, some c)
      else (o.withValue c rest).map (·, none)

def readBatchOptions : BatchOptions → List Chars → Except Chars BatchOptions
  | o, [] => .ok { o with command := ["echo".toList] }
  | o, ['-', '-'] :: command =>
    .ok { o with command := if command.isEmpty then ["echo".toList] else command }
  | o, ('-' :: c :: more) :: rest =>
    match readBatchLetters o (c :: more) with
    | .error why => .error why
    | .ok (o, none) => readBatchOptions o rest
    | .ok (_, some c) =>
      match rest with
      | [] => .error ("option requires an argument -- ".toList ++ Utility.quoted [c])
      | value :: rest =>
        match o.withValue c value with
        | .error why => .error why
        | .ok o => readBatchOptions o rest
  | o, command => .ok { o with command }

/-- The words of each line of a text, or the whole line behind its first blanks; quotes and
backslashes may hold them together. A quote that is not closed is told. The word at hand, the words
of the line and the lines are given, the latest first. The fuel bounds the length. -/
def itemsOf (whole : Bool) : Nat → Option Chars → List Chars → List (List Chars) → Chars →
    List (List Chars) × Option String
  | 0, _, _, lines, _ => (lines.reverse, none)
  | fuel + 1, word?, words, lines, s =>
    let ended := match word? with
      | some word => word.reverse :: words
      | none => words
    let here := if ended.isEmpty then lines else ended.reverse :: lines
    let before := if words.isEmpty || whole then lines else words.reverse :: lines
    let word := word?.getD []
    match s with
    | [] => (here.reverse, none)
    | '\n' :: rest => itemsOf whole fuel none [] here rest
    | '\\' :: c :: rest => itemsOf whole fuel (some (c :: word)) words lines rest
    | c :: rest =>
      if c == '"' || c == '\'' then
        let inside := rest.takeWhile fun d => d != c && d != '\n'
        match rest.drop inside.length with
        | d :: behind =>
          if d == c then itemsOf whole fuel (some (inside.reverse ++ word)) words lines behind
          else (before.reverse, some (if c == '"' then "double" else "single"))
        | [] => (before.reverse, some (if c == '"' then "double" else "single"))
      else if isSpace c && !(whole && word?.isSome) then itemsOf whole fuel none ended lines rest
      else itemsOf whole fuel (some (c :: word)) words lines rest

/-- A list cut after every so many members. The fuel bounds their number. -/
def chunks {α : Type} (length : Nat) : Nat → List α → List (List α)
  | 0, _ => []
  | _ + 1, [] => []
  | fuel + 1, xs => xs.take length :: chunks length fuel (xs.drop length)

/-- A text with another one in the place of a mark. The fuel bounds the length. -/
def filled (mark item : Chars) : Nat → Chars → Chars
  | 0, s => s
  | _ + 1, [] => []
  | fuel + 1, c :: rest =>
    if !mark.isEmpty && mark.isPrefixOf (c :: rest) then
      item ++ filled mark item fuel ((c :: rest).drop mark.length)
    else c :: filled mark item fuel rest

/-- The commands for a text, and what is wrong with the text, if anything is. -/
def BatchOptions.commands (o : BatchOptions) (input : Chars) : List (List Chars) × Option Chars :=
  let (lines, open?) : List (List Chars) × Option String := match o.stop? with
    | some c =>
      let items := splitAt c input
      ((if items.getLast? == some [] then items.dropLast else items).map ([·]), none)
    | none => itemsOf o.mark?.isSome (input.length + 1) none [] [] input
  let why? := open?.map fun kind =>
    ("unmatched " ++ kind ++ " quote; by default quotes are special to xargs unless you use the -0 "
      ++ "option").toList
  let groups : List (List Chars) := match o.most?, o.lines? with
    | some n, _ => chunks n (lines.flatten.length + 1) lines.flatten
    | none, some n => (chunks n (lines.length + 1) lines).map List.flatten
    | none, none => if lines.flatten.isEmpty then [] else [lines.flatten]
  match o.mark?, groups with
  | some mark, _ =>
    let one (item : Chars) : List Chars :=
      o.command.mapIdx fun i a => if i == 0 then a else filled mark item (a.length + 1) a
    (lines.flatten.map one, why?)
  | none, [] => (if o.needsItems || why?.isSome then [] else [o.command], why?)
  | none, groups => (groups.map (o.command ++ ·), why?)

end TargetQuery.Script
