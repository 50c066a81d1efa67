import TargetQuery.Script.Expand
import TargetQuery.Script.Format
import TargetQuery.Script.Grammar
import TargetQuery.Script.Image
import TargetQuery.Script.Signal

/-!
# Built-in commands

The commands that a shell carries out by itself, as far as they do not run other commands: they
print, compare, read a line, and look at and change the state of the shell.
-/

namespace TargetQuery.Script

/-- A built-in command: its arguments, and the status with which it ends. -/
abbrev BuiltIn := List Chars → Run Nat

namespace BuiltIn

def task {α : Type} (t : Task α) : Run α := ExceptT.lift t

def illegal {α : Type} (c : Char) : Run α := fault ("Illegal option -".toList ++ [c])

/-- The options in front, which must be among the letters, and the other arguments. -/
def options (letters : String) : Chars → List Chars → Run (Chars × List Chars)
  | found, ['-', '-'] :: rest => pure (found, rest)
  | found, ('-' :: c :: more) :: rest =>
    match (c :: more).find? fun c => !letters.toList.contains c with
    | some c => illegal c
    | none => options letters (found ++ c :: more) rest
  | found, rest => pure (found, rest)

def number (a : Chars) : Run Nat :=
  match natural? a with
  | some n => if n < Nat.pow 2 31 then pure n else fault ("Illegal number: ".toList ++ a)
  | none => fault ("Illegal number: ".toList ++ a)

/-! ### Text -/

def printed (command : String) (text : Chars) : Run Nat := do
  if text.isEmpty then pure 0
  else if ← task (put 1 (toBytes text)) then pure 0
  else
    task (warn (command ++ ": I/O error").toList)
    pure 1

/-- Prints arguments with blanks between them. A dash and an `n` in front leave out the line end. -/
def echo : BuiltIn := fun arguments => do
  if (← get).isLarge then task (Utility.echo [] arguments)
  else
    let (bare, arguments) := match arguments with
      | ['-', 'n'] :: rest => (true, rest)
      | arguments => (false, arguments)
    let joined := [' '].intercalate arguments
    let (text, isOver) := unescape {} (joined.length + 1) [] joined
    printed "echo" (if bare || isOver then text else text ++ ['\n'])

def printf : BuiltIn := fun arguments => do
  let (_, arguments) ← options "" [] arguments
  match arguments with
  | [] => fault "usage: printf format [arg ...]".toList
  | form :: arguments =>
    let done := format false form arguments
    task (done.complaints.reverse.forM warn)
    let status ← printed "printf" done.shown.reverse
    match done.error? with
    | some why => fault why
    | none => pure (if done.failed then 1 else status)

def test : BuiltIn := fun arguments => do
  match Condition.holds (← get).world arguments with
  | .ok holds => pure (if holds then 0 else 1)
  | .error why => fault why

def bracket : BuiltIn := fun arguments =>
  if arguments.getLast? == some [']'] then test arguments.dropLast
  else fault "missing ]".toList

/-- A character of a line, and whether a backslash stands in front of it. -/
abbrev Escaped := Char × Bool

/-- The characters of a line, and how much of the input has been read, whose end may have been met.
-/
def lineOf (raw : Bool) : List Escaped → Nat → Bytes → List Escaped × Nat × Bool
  | line, n, [] => (line.reverse, n, true)
  | line, n, [b] =>
    if b == Ascii.newline then (line.reverse, n + 1, false)
    else if b == Ascii.nul || (b == Ascii.backslash && !raw) then (line.reverse, n + 1, true)
    else (((Char.ofNat b.toNat, false) :: line).reverse, n + 1, true)
  | line, n, b :: d :: rest =>
    if b == Ascii.newline then (line.reverse, n + 1, false)
    else if b == Ascii.nul then lineOf raw line (n + 1) (d :: rest)
    else if b == Ascii.backslash && !raw then
      let line := if d == Ascii.newline then line else (Char.ofNat d.toNat, true) :: line
      lineOf raw line (n + 2) rest
    else lineOf raw ((Char.ofNat b.toNat, false) :: line) (n + 1) (d :: rest)

/-- The values that a line gives to a number of variables; the last one gets all that is left. -/
def shares (separators : Chars) : Nat → List Escaped → List Chars
  | 0, _ => []
  | more + 1, line =>
    let isSeparator (e : Escaped) : Bool := !e.2 && separators.contains e.1
    let isGap (e : Escaped) : Bool := isSeparator e && isSpace e.1
    let line := line.dropWhile isGap
    if more == 0 then
      let glyphs := line.map fun e => Glyph.char e.1 e.2 (!e.2)
      match cutFields separators glyphs with
      | [] => [[]]
      | [one] => [one.map (·.1)]
      | _ => [((line.reverse.dropWhile isGap).reverse).map (·.1)]
    else
      let field := line.takeWhile fun e => !isSeparator e
      let rest := (line.drop field.length).dropWhile isGap
      let rest := match rest with
        | e :: behind => if isSeparator e then behind else rest
        | [] => []
      field.map (·.1) :: shares separators more rest

def read : BuiltIn := fun arguments => do
  let raw := arguments.head? == some ['-', 'r']
  let names := if raw then arguments.tail else arguments
  let (names, prompt) := match names with
    | ['-', 'p'] :: prompt :: names => (names, prompt)
    | names => (names, [])
  let (_, names) ← options "r" [] names
  if !prompt.isEmpty then task (complain prompt)
  if names.isEmpty then fault "arg count".toList
  else
    let s ← get
    let input := (s.left 0).toOption.getD []
    let (line, count, ended) := lineOf raw [] 0 input
    set (s.hasRead 0 count)
    let values := shares s.separators names.length line
    (names.zip values).forM fun v => assign v.1 v.2
    pure (if ended then 1 else 0)

/-! ### Variables -/

/-- A text in quotes, as it can be read again. Apostrophes stand between quotes of the other kind.
-/
def requoted (s : Chars) : Chars :=
  let step (state : Chars × Bool) (c : Char) : Chars × Bool :=
    let (done, atMark) := state
    if c == '\'' then (if atMark then c :: done else '\'' :: '"' :: '\'' :: done, true)
    else (if atMark then c :: '\'' :: '"' :: done else c :: done, false)
  let (done, atMark) := s.foldl step (['\''], false)
  ((if atMark then '"' else '\'') :: done).reverse

def listing (front : Chars) (bindings : List Variable) : Chars :=
  (bindings.mergeSort fun v w => String.ofList v.name ≤ String.ofList w.name).flatMap fun v =>
    front ++ v.name ++ ((v.value?.map fun value => '=' :: requoted value).getD []) ++ ['\n']

def mark (command : String) (isMarked : Variable → Bool) (change : Variable → Variable) : BuiltIn :=
  fun arguments => do
    let (_, names) ← options "p" [] arguments
    if names.isEmpty then
      printed command (listing (command.toList ++ [' ']) ((← get).bindings.filter isMarked))
    else
      names.forM fun a => do
        let name := a.takeWhile (· != '=')
        if !isName name then fault (name ++ ": bad variable name".toList)
        else
          if name.length < a.length then assign name (a.drop (name.length + 1))
          modify fun s => s.withVariable (change ((s.binding? name).getD { name }))
      pure 0

def exportAll : BuiltIn := mark "export" (·.exported) fun v => { v with exported := true }

def fix : BuiltIn := mark "readonly" (·.readonly) fun v => { v with readonly := true }

def unset : BuiltIn := fun arguments => do
  let (letters, names) ← options "vf" [] arguments
  names.forM fun name => do
    let s ← get
    if letters.contains 'f' then
      set { s with functions := s.functions.filter (·.1 != name) }
    else if !isName name then fault (name ++ ": bad variable name".toList)
    else if (s.binding? name).any (·.readonly) then fault (name ++ ": is read only".toList)
    else set (s.withoutVariable name)
  pure 0

/-- Keeps variables for the function that is running. -/
def keepLocal : BuiltIn := fun names => do
  match (← get).scopes with
  | [] => fault "not in a function".toList
  | _ =>
    names.forM fun a => do
      let name := a.takeWhile (· != '=')
      if !isName name then fault (name ++ ": bad variable name".toList)
      else
        let s ← get
        let old := (s.binding? name).getD { name }
        match s.scopes with
        | [] => pure ()
        | scope :: outer =>
          if !scope.any (·.name == name) then set { s with scopes := (old :: scope) :: outer }
        if name.length < a.length then assign name (a.drop (name.length + 1))
    pure 0

def optionNames : List (String × Option Char) :=
  [("errexit", some 'e'), ("noglob", some 'f'), ("ignoreeof", some 'I'), ("interactive", some 'i'),
    ("monitor", some 'm'), ("noexec", some 'n'), ("stdin", some 's'), ("xtrace", some 'x'),
    ("verbose", some 'v'), ("vi", some 'V'), ("emacs", some 'E'), ("noclobber", some 'C'),
    ("allexport", some 'a'), ("notify", some 'b'), ("nounset", some 'u'), ("nolog", none),
    ("debug", none)]

def setOption (on : Bool) (c : Char) : Run Unit := do
  if !optionLetters.contains c then illegal c
  else modify fun s =>
    let others := s.options.filter (· != c)
    { s with options := if on then c :: others else others }

/-- Sets or unsets an option by its name; without a name, lists the options. -/
def setByName (on : Bool) (name? : Option Chars) : Run Unit := do
  match name? with
  | none =>
    let s ← get
    let line (o : String × Option Char) : Chars :=
      let name := o.1.toList
      let state := if o.2.any s.has then "on" else "off"
      if on then name ++ List.replicate (16 - name.length) ' ' ++ state.toList ++ ['\n']
      else "set ".toList ++ (if o.2.any s.has then "-o " else "+o ").toList ++ name ++ ['\n']
    task (print ((if on then "Current option settings\n".toList else [])
      ++ optionNames.flatMap line))
  | some name =>
    match optionNames.lookup (String.ofList name) with
    | some (some c) => setOption on c
    | some none => pure ()
    | none => fault ("Illegal option ".toList ++ (if on then "-o " else "+o ").toList ++ name)

/-- Sets the options in front of arguments. What is left are the arguments, and whether they were
set off from the options. -/
def setOptions : Nat → List Chars → Run (List Chars × Bool)
  | 0, arguments => pure (arguments, false)
  | fuel + 1, arguments =>
    match arguments with
    | ['-', '-'] :: rest => pure (rest, true)
    | ['-'] :: rest => do
      modify fun s => { s with options := s.options.filter fun c => c != 'x' && c != 'v' }
      pure (rest, false)
    | (sign :: letters) :: rest =>
      if (sign == '-' || sign == '+') && !letters.isEmpty then do
        let on := sign == '-'
        (letters.filter (· != 'o')).forM (setOption on)
        if letters.contains 'o' then
          setByName on rest.head?
          setOptions fuel rest.tail
        else setOptions fuel rest
      else pure (arguments, false)
    | arguments => pure (arguments, false)

/-- Sets options and arguments; without any, lists the variables. -/
def setUp : BuiltIn := fun arguments => do
  if arguments.isEmpty then
    printed "set" (listing [] ((← get).bindings.filter (·.value?.isSome)))
  else
    let (rest, isSetOff) ← setOptions (arguments.length + 1) arguments
    if !rest.isEmpty || isSetOff then modify fun s => { s with arguments := rest }
    pure 0

def shift : BuiltIn := fun arguments => do
  let n ← match arguments with
    | [] => pure 1
    | a :: _ => number a
  let s ← get
  if s.arguments.length < n then fault "can't shift that many".toList
  else
    set { s with arguments := s.arguments.drop n, optionOffset := 0 }
    pure 0

/-- Whether an option takes a value, if it is among those described by letters, each of which has a
colon behind it if the option does. -/
def takesValue? (c : Char) : Chars → Option Bool
  | [] => none
  | d :: ':' :: rest => if d == c then some true else takesValue? c rest
  | d :: rest => if d == c then some false else takesValue? c rest

/-- Takes the next option out of arguments. The variable that counts the arguments is already past
the one at hand while there are letters left in it. -/
def getopts : BuiltIn := fun operands => do
  match operands with
  | letters :: name :: given =>
    let s ← get
    let arguments := if given.isEmpty then s.arguments else given
    let index := max 1 (((s.value? "OPTIND".toList).bind natural?).getD 1)
    let quiet := letters.head? == some ':'
    let finish (index offset : Nat) (option : Char) (status : Nat) : Run Nat := do
      assign "OPTIND".toList (ofNat index)
      modify fun s => { s with optionOffset := offset }
      assign name [option]
      pure status
    let value (a : Chars) : Run Unit := assign "OPTARG".toList a
    let refuse (why c : Chars) : Run Unit := do
      if quiet then value c
      else
        task (complain (why ++ ['\n']))
        modify fun s => s.withoutVariable "OPTARG".toList
    let next (index offset : Nat) (c : Char) (more : Chars) : Run Nat := do
      match takesValue? c (if quiet then letters.tail else letters) with
      | none =>
        refuse ("Illegal option -".toList ++ [c]) [c]
        finish index (offset + 1) '?' 0
      | some false =>
        value []
        finish index (offset + 1) c 0
      | some true =>
        if !more.isEmpty then
          value more
          finish index 0 c 0
        else match arguments[index - 1]? with
          | some a =>
            value a
            finish (index + 1) 0 c 0
          | none =>
            refuse ("No arg for -".toList ++ [c] ++ " option".toList) [c]
            finish index 0 (if quiet then ':' else '?') 0
    let begun := if index == 1 || s.optionOffset == 0 then []
      else ((arguments[index - 2]?).getD []).drop s.optionOffset
    match begun, arguments[index - 1]? with
    | c :: more, _ => next index s.optionOffset c more
    | [], some ['-', '-'] => finish (index + 1) 0 '?' 1
    | [], some ('-' :: c :: more) => next (index + 1) 1 c more
    | [], _ => finish index 0 '?' 1
  | _ => fault "Usage: getopts optstring var [arg]".toList

/-! ### The directory -/

def pwd : BuiltIn := fun arguments => do
  let _ ← options "LP" [] arguments
  printed "pwd" (ofBytes (← get).world.directory.bytes ++ ['\n'])

def cd : BuiltIn := fun arguments => do
  let (_, arguments) ← options "LP" [] arguments
  let s ← get
  let isBack := arguments.head? == some ['-']
  let goal := match arguments with
    | [] => (s.value? "HOME".toList).getD []
    | ['-'] :: _ => (s.value? "OLDPWD".toList).getD []
    | goal :: _ => goal
  let isPlain := goal.head?.any fun c => c != '/' && c != '.'
  let fronts := if isPlain then splitAt ':' ((s.value? "CDPATH".toList).getD []) else [[]]
  let paths := fronts.map fun front =>
    if front.isEmpty then (goal, false) else (front ++ '/' :: goal, true)
  let paths := if paths.any (!·.2) then paths else paths ++ [(goal, false)]
  let place? (path : Chars) : Option Place :=
    if path.isEmpty then some s.world.here
    else match s.world.files.locate s.world.here (Shell.pathOf path) with
      | .ok (place, .directory) => some place
      | _ => none
  match paths.findSome? fun p => (place? p.1).map fun place => (place, p.2) with
  | none => fault ("can't cd to ".toList ++ goal)
  | some (place, isFar) =>
    let old := ofBytes s.world.directory.bytes
    let new := ofBytes (FileTree.render place).bytes
    set { s with world := { s.world with here := place } }
    modify fun s => (s.withValue "OLDPWD".toList old).withValue "PWD".toList new
    modify fun s => ["OLDPWD", "PWD"].foldl (fun s name =>
      match s.binding? name.toList with
      | some v => s.withVariable { v with exported := true }
      | none => s) s
    if isBack || isFar then task (print (new ++ ['\n']))
    pure 0

/-! ### Processes -/

def killUsage : Chars :=
  "Usage: kill [-s sigspec | -signum | -sigspec] [pid | job]... or\nkill -l [exitstatus]".toList

def sendAll (signal : Nat) (processes : List Chars) : Run Nat := do
  if processes.isEmpty then fault killUsage
  else
    let one (status : Nat) (a : Chars) : Run Nat := do
      let n ← number a
      if ← Signal.send signal n then pure status
      else
        task (warn "No such process\n".toList)
        pure 1
    processes.foldlM one 0

def kill : BuiltIn := fun arguments => do
  let named (name : Chars) (processes : List Chars) : Run Nat :=
    match Signal.ofChars? name with
    | some n => sendAll n processes
    | none => fault ("invalid signal number or name: ".toList ++ name)
  match arguments with
  | [] => fault killUsage
  | ['-', 'l'] :: rest =>
    match rest with
    | [] => printed "kill" (Signal.names.flatMap fun name => name.toList ++ ['\n'])
    | a :: _ =>
      let n ← number a
      printed "kill" ((Signal.name (if n > 128 then n - 128 else n)).toList ++ ['\n'])
  | ['-', 's'] :: name :: rest => named name rest
  | ('-' :: c :: name) :: rest =>
    if ['-', c] == ['-', '-'] && name.isEmpty then sendAll 15 rest
    else match Signal.ofChars? (c :: name) with
      | some n => sendAll n rest
      | none => illegal c
  | processes => sendAll 15 processes

def wait : BuiltIn := fun arguments => do
  let s ← get
  let one (_ : Nat) (a : Chars) : Run Nat := do
    let n ← number a
    pure ((s.ended.lookup n).getD 127)
  arguments.foldlM one 0

/-- Says what is done on signals, or changes it. -/
def trap : BuiltIn := fun arguments => do
  let (_, arguments) ← options "" [] arguments
  let s ← get
  let change (action? : Option Chars) (signals : List Chars) : Run Nat := do
    let one (status : Nat) (name : Chars) : Run Nat := do
      match Signal.ofChars? name with
      | none =>
        task (complain ("trap: ".toList ++ name ++ ": bad trap\n".toList))
        pure 1
      | some n =>
        modify fun s =>
          let others := s.traps.filter (·.1 != n)
          { s with traps := (action?.map fun a => (n, a)).toList ++ others }
        pure status
    signals.foldlM one 0
  match arguments with
  | [] =>
    let traps := s.traps.mergeSort fun a b => a.1 ≤ b.1
    printed "trap" (traps.flatMap fun t =>
      "trap -- ".toList ++ requoted t.2 ++ ' ' :: (Signal.name t.1).toList ++ ['\n'])
  | ['-'] :: signals => change none signals
  | action :: signals =>
    if signals.isEmpty then change none [action]
    else if (natural? action).isSome then change none (action :: signals)
    else change (some action) signals

/-- The mode that new files do not get, by letters. -/
def maskText (mask : Nat) : Chars :=
  let part (c : Char) (place : Nat) : Chars :=
    let bits := (0o777 - (0o777 &&& mask)) / place % 8
    [c, '='] ++ (if bits / 4 == 1 then ['r'] else []) ++ (if bits / 2 % 2 == 1 then ['w'] else [])
      ++ (if bits % 2 == 1 then ['x'] else [])
  part 'u' 64 ++ [','] ++ part 'g' 8 ++ [','] ++ part 'o' 1 ++ ['\n']

/-- Shows or sets the mode that new files do not get. -/
def umask : BuiltIn := fun arguments => do
  let (letters, arguments) ← options "S" [] arguments
  let s ← get
  match arguments with
  | [] =>
    let digits := inBase 8 s.mask
    let text := List.replicate (4 - digits.length) '0' ++ digits ++ ['\n']
    printed "umask" (if letters.contains 'S' then maskText s.mask else text)
  | a :: _ =>
    if a.head?.any Char.isDigit then
      if a.all (isDigitTo 8) then
        set { s with mask := ofDigits 8 a % 512 }
        pure 0
      else fault ("Illegal number: ".toList ++ a)
    else
      match Utility.modeFrom 0 (0o777 - s.mask) a with
      | some mode =>
        set { s with mask := 0o777 - (0o777 &&& mode) }
        pure 0
      | none => fault ("Illegal mode: ".toList ++ a)

/-! ### Names -/

def nickname : BuiltIn := fun arguments => do
  let line (a : Chars × Chars) : Chars := a.1 ++ '=' :: requoted a.2 ++ ['\n']
  let s ← get
  if arguments.isEmpty then printed "alias" (s.aliases.flatMap line)
  else
    let one (status : Nat) (a : Chars) : Run Nat := do
      let s ← get
      let name := a.takeWhile (· != '=')
      if name.length < a.length then
        let others := s.aliases.filter (·.1 != name)
        set { s with aliases := others ++ [(name, a.drop (name.length + 1))] }
        pure status
      else match s.aliases.lookup name with
        | some value =>
          let _ ← printed "alias" (line (name, value))
          pure status
        | none =>
          task (complain ("alias: ".toList ++ name ++ " not found\n".toList))
          pure 1
    arguments.foldlM one 0

def forget : BuiltIn := fun arguments => do
  let (letters, names) ← options "a" [] arguments
  if letters.contains 'a' then
    modify fun s => { s with aliases := [] }
    pure 0
  else
    let one (status : Nat) (name : Chars) : Run Nat := do
      let s ← get
      if (s.aliases.lookup name).isNone then
        task (complain ("unalias: ".toList ++ name ++ " not found\n".toList))
        pure 1
      else
        set { s with aliases := s.aliases.filter (·.1 != name) }
        pure status
    names.foldlM one 0

/-- Shows how much the system allows, which is as much as one likes. -/
def ulimit : BuiltIn := fun arguments =>
  if (arguments.getLast?.getD []).head?.any Char.isDigit then pure 0
  else printed "ulimit" "unlimited\n".toList

/-- The time that the processes have taken, which is none. -/
def times : BuiltIn := fun _ => printed "times" "0m0.00s 0m0.00s\n0m0.00s 0m0.00s\n".toList

def fileOf? (s : Shell) (name : Chars) : Option Chars :=
  if name.contains '/' then
    if s.world.files.isExecutable s.world.here (Shell.pathOf name) then some name else none
  else
    (Image.whereIs? s.world s.searchPath (toBytes name)).map fun p => ofBytes p.bytes

/-- Remembers where programs are, if they can be found. -/
def hash : BuiltIn := fun arguments => do
  let (_, names) ← options "rv" [] arguments
  let one (status : Nat) (name : Chars) : Run Nat := do
    let s ← get
    let isKnown := isSpecial name || (s.functions.lookup name).isSome || (fileOf? s name).isSome
    if isKnown then pure status
    else
      task (warn (name ++ ": not found".toList))
      pure 1
  names.foldlM one 0

def table : List (String × BuiltIn) :=
  [(":", fun _ => pure 0), ("true", fun _ => pure 0), ("false", fun _ => pure 1), ("echo", echo),
    ("printf", printf), ("test", test), ("[", bracket), ("read", read), ("export", exportAll),
    ("readonly", fix), ("unset", unset), ("local", keepLocal), ("set", setUp), ("shift", shift),
    ("getopts", getopts), ("pwd", pwd), ("cd", cd), ("chdir", cd), ("kill", kill), ("wait", wait),
    ("trap", trap), ("umask", umask), ("alias", nickname), ("unalias", forget), ("ulimit", ulimit),
    ("times", times), ("hash", hash), ("jobs", fun _ => pure 0)]

/-- The commands that run other commands or end what is running. -/
def controls : List String :=
  [".", "break", "command", "continue", "eval", "exec", "exit", "return", "type"]

def isBuiltIn (name : Chars) : Bool :=
  let name := String.ofList name
  controls.contains name || (table.lookup name).isSome

def describe (inWords : Bool) (name : Chars) : Run Nat := do
  let s ← get
  let say (words plain : Chars) : Run Nat := do
    task (print ((if inWords then name ++ words else plain) ++ ['\n']))
    pure 0
  if keywords.contains (String.ofList name) then say " is a shell keyword".toList name
  else match s.aliases.lookup name with
    | some value =>
      say (" is an alias for ".toList ++ value)
        ("alias ".toList ++ name ++ '=' :: requoted value)
    | none =>
      if (s.functions.lookup name).isSome then say " is a shell function".toList name
      else if isSpecial name then say " is a special shell builtin".toList name
      else if isBuiltIn name then say " is a shell builtin".toList name
      else match fileOf? s name with
        | some path => say (" is ".toList ++ path) path
        | none =>
          if inWords then task (print (name ++ ": not found\n".toList))
          pure 127

end BuiltIn

end TargetQuery.Script
