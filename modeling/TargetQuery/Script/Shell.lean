import TargetQuery.Machine.Command
import TargetQuery.Script.Command

/-!
# The state of a shell

What a running script knows and can change: the files and open streams, which all programs share,
and its own variables, functions and options. A program that a script starts has a state of its own
for as long as it runs; afterwards only what is shared remains of it.

This shell only stands in for the programs of a machine (see `TargetQuery.Script.Launch`).
-/

namespace TargetQuery.Script

inductive Stream where
  /-- Something to be read. -/
  | source (left : Bytes)
  /-- What has been written, the latest first. -/
  | sink (parts : List Bytes)
  | file (place : Place) (offset : Nat) (writes appends : Bool)
  /-- Has nothing to read; forgets what is written, or refuses it if it is full. -/
  | device (full : Bool)
deriving Inhabited

/-- A variable. One that has no value may still be marked. -/
structure Variable where
  name : Chars
  value? : Option Chars := none
  exported : Bool := false
  readonly : Bool := false

/-- The state of a shell, or of another program that runs. -/
structure Shell where
  /-- The files, the directory of the program, and its environment. -/
  world : World
  streams : Array Stream := #[]
  /-- The number that the next process gets. -/
  nextProcess : Nat := 0
  process : Nat := 0
  parent : Nat := 0
  /-- The number of the shell as scripts know it, which is the same within subshells. -/
  mainProcess : Nat := 0
  /-- The name under which the program runs. -/
  zero : Chars := []
  /-- The streams of the program, by their numbers. -/
  descriptors : List (Nat × Nat) := []
  bindings : List Variable := []
  arguments : List Chars := []
  functions : List (Chars × Command) := []
  aliases : List (Chars × Chars) := []
  /-- The documents of the scripts that have been read. -/
  documents : List (Nat × Word) := []
  nextDocument : Nat := 0
  /-- The letters of the options that are set. -/
  options : Chars := []
  /-- What is done on signals, and on exit under the number zero. -/
  traps : List (Nat × Chars) := []
  /-- Signals whose traps have not been carried out yet. -/
  pending : List Nat := []
  /-- Signals for which processes further out have traps. -/
  guarded : List (Nat × Nat) := []
  /-- Signals on their way to such processes. -/
  sent : List (Nat × Nat) := []
  /-- The outcome of the last command. -/
  status : Nat := 0
  /-- The outcome of the last command whose output was put into the command at hand. -/
  outputStatus : Nat := 0
  /-- The line that has been reached. -/
  line : Nat := 1
  /-- The built-in command that is running. -/
  builtIn : Option Chars := none
  /-- How many loops are running inside each other. -/
  loops : Nat := 0
  /-- The variables that are restored at the end of each running function. -/
  scopes : List (List Variable) := []
  /-- Processes in the background that have ended, and the last one that was started. -/
  ended : List (Nat × Nat) := []
  lastBackground : Option Nat := none
  /-- The bits of a mode that new files do not get. -/
  mask : Nat := 0o022
  /-- How far the argument at hand has been looked at for options. -/
  optionOffset : Nat := 0
  /-- Whether the shell speaks as its larger relative does. -/
  isLarge : Bool := false

/-- Something done by a program. -/
abbrev Task := StateM Shell

inductive Stop where
  | exit
  /-- Signals end processes. -/
  | killed (process signal : Nat)
  | leave (loops : Nat)
  | again (loops : Nat)
  | back
  /-- An error that ends the script, unless it happens in a command that may fail. -/
  | fault

abbrev Run := ExceptT Stop Task

namespace Shell

/-! ### Streams -/

def stream? (s : Shell) (number : Nat) : Option (Nat × Stream) := do
  let i ← s.descriptors.lookup number
  some (i, ← s.streams[i]?)

/-- Leads a stream of the program elsewhere, or closes it. -/
def direct (s : Shell) (number : Nat) (goal? : Option Nat) : Shell :=
  let others := s.descriptors.filter (·.1 != number)
  { s with descriptors := (goal?.map fun i => (number, i)).toList ++ others }

def opened (s : Shell) (stream : Stream) : Nat × Shell :=
  (s.streams.size, { s with streams := s.streams.push stream })

def contentAt (s : Shell) (place : Place) : Bytes :=
  match s.world.files.find? place with
  | some (.file _ content) => content
  | _ => []

def withFiles (s : Shell) (files : FileTree) : Shell := { s with world := { s.world with files } }

/-- The content of a file with something written at a place in it. -/
def overwritten (content : Bytes) (offset : Nat) (text : Bytes) : Bytes :=
  let front := content.take offset
  front ++ List.replicate (offset - front.length) 0 ++ text ++ content.drop (offset + text.length)

def written (s : Shell) (number : Nat) (text : Bytes) : Option Shell := do
  let (i, stream) ← s.stream? number
  match stream with
  | .source _ => none
  | .device full => if full then none else some s
  | .sink parts => some { s with streams := s.streams.setIfInBounds i (.sink (text :: parts)) }
  | .file place offset writes appends =>
    if !writes then none
    else match s.world.files.find? place with
      | some (.file mode content) =>
        let offset := if appends then content.length else offset
        let files := s.world.files.put place (.file mode (overwritten content offset text))
        let moved := Stream.file place (offset + text.length) writes appends
        some { s.withFiles files with streams := s.streams.setIfInBounds i moved }
      | _ => some s

def left (s : Shell) (number : Nat) : Except SystemFailure Bytes :=
  match s.stream? number with
  | none => .error (.other "Bad file descriptor")
  | some (_, .source left) => .ok left
  | some (_, .device _) => .ok []
  | some (_, .sink _) => .error (.other "Bad file descriptor")
  | some (_, .file place offset _ _) =>
    match s.world.files.find? place with
    | some .directory => .error .isADirectory
    | _ => .ok ((s.contentAt place).drop offset)

/-- The shell when some bytes have been read from a stream. -/
def hasRead (s : Shell) (number count : Nat) : Shell :=
  match s.stream? number with
  | some (i, .source left) =>
    { s with streams := s.streams.setIfInBounds i (.source (left.drop count)) }
  | some (i, .file place offset writes appends) =>
    let moved := Stream.file place (offset + count) writes appends
    { s with streams := s.streams.setIfInBounds i moved }
  | _ => s

def collected (s : Shell) (i : Nat) : Bytes :=
  match s.streams[i]? with
  | some (.sink parts) => parts.reverse.flatten
  | _ => []

/-! ### Variables -/

def binding? (s : Shell) (name : Chars) : Option Variable :=
  s.bindings.find? (·.name == name)

def value? (s : Shell) (name : Chars) : Option Chars := (s.binding? name).bind (·.value?)

def separators (s : Shell) : Chars := (s.value? "IFS".toList).getD [' ', '\t', '\n']

/-- The directories in which the shell looks for programs. -/
def searchPath (s : Shell) : Bytes := toBytes ((s.value? "PATH".toList).getD [])

def withVariable (s : Shell) (v : Variable) : Shell :=
  if s.bindings.any (·.name == v.name) then
    { s with bindings := s.bindings.map fun w => if w.name == v.name then v else w }
  else { s with bindings := s.bindings ++ [v] }

/-- The shell with a value for a variable, which keeps its marks. -/
def withValue (s : Shell) (name value : Chars) : Shell :=
  let old := (s.binding? name).getD { name }
  let exported := old.exported || s.options.contains 'a'
  let s := s.withVariable { old with value? := some value, exported }
  if name == "OPTIND".toList then { s with optionOffset := 0 } else s

def withoutVariable (s : Shell) (name : Chars) : Shell :=
  { s with bindings := s.bindings.filter (·.name != name) }

def environment (s : Shell) : List (String × Bytes) :=
  s.bindings.filterMap fun v =>
    if v.exported then v.value?.map fun value => (String.ofList v.name, toBytes value) else none

def has (s : Shell) (option : Char) : Bool := s.options.contains option

def modeOf (s : Shell) (full : Nat) : Nat := full - (full &&& s.mask)

def pathOf (name : Chars) : Path := ⟨toBytes name⟩

end Shell

/-! ### Tasks -/

/-- Writes to a stream of the program, and says whether it could be written to. -/
def put (number : Nat) (text : Bytes) : Task Bool := do
  match (← get).written number text with
  | some s =>
    set s
    pure true
  | none => pure false

def print (text : Chars) : Task Unit := do
  if !text.isEmpty then
    let _ ← put 1 (toBytes text)

def complain (text : Chars) : Task Unit := do
  let _ ← put 2 (toBytes text)

def takeInput (number : Nat) : Task (Except SystemFailure Bytes) := do
  let s ← get
  match s.left number with
  | .ok left =>
    set (s.hasRead number left.length)
    pure (.ok left)
  | .error failure => pure (.error failure)

def messageHead (s : Shell) : Chars :=
  let line := ofNat s.line
  if s.isLarge then s.zero ++ ": line ".toList ++ line ++ ": ".toList
  else s.zero ++ ": ".toList ++ line ++ ": ".toList
    ++ (s.builtIn.map (· ++ ": ".toList)).getD []

def warn (text : Chars) : Task Unit := do
  complain (messageHead (← get) ++ text ++ ['\n'])

def fault {α : Type} (text : Chars) : Run α := do
  (warn text : Task _)
  modify fun s => { s with status := 2 }
  throw .fault

/-- Gives a variable a value, unless it must not change. -/
def assign (name value : Chars) : Run Unit := do
  let s ← get
  if !isName name then fault (name ++ ": bad variable name".toList)
  else if (s.binding? name).any (·.readonly) then fault (name ++ ": is read only".toList)
  else set (s.withValue name value)

/-! ### Opening files -/

/-- Why a file is not opened, in the words of a script. -/
def openingReason (creating : Bool) : SystemFailure → String
  | .notFound | .notADirectory => if creating then "Directory nonexistent" else "No such file"
  | .isADirectory => "Is a directory"
  | .permissionDenied => "Permission denied"
  | .noSpace => "No space left on device"
  | .alreadyExists => "File exists"
  | .nameTooLong => "File name too long"
  | failure => failure.message

def streamOf? (name : Chars) : Option Nat :=
  match String.ofList name with
  | "/dev/stdin" => some 0
  | "/dev/stdout" => some 1
  | "/dev/stderr" => some 2
  | s => if s.startsWith "/dev/fd/" then natural? (name.drop 8) else none

/-- Opens a file, and gives the place of its stream among those that are open. -/
def openFile (name : Chars) (opening : Opening) : Task (Except SystemFailure Nat) := do
  let s ← get
  let w := s.world
  let path := Shell.pathOf name
  let opened (stream : Stream) : Task (Except SystemFailure Nat) := do
    let (i, s) := (← get).opened stream
    set s
    pure (.ok i)
  match streamOf? name with
  | some number => pure ((s.descriptors.lookup number).elim (.error .notFound) .ok)
  | none =>
    match w.files.locate w.here path with
    | .ok (_, .device full) => opened (.device full)
    | .ok (place, .directory) =>
      if opening == .read then opened (.file place 0 false false) else pure (.error .isADirectory)
    | .ok (place, .file mode _) =>
      let emptied : Task (Except SystemFailure Nat) := do
        set (s.withFiles (w.files.put place (.file mode [])))
        opened (.file place 0 true false)
      let reads := opening == .read || opening == .readWrite
      if reads && !FileTree.modeReads mode then pure (.error .permissionDenied)
      else if opening != .read && !FileTree.modeWrites mode then pure (.error .permissionDenied)
      else match opening with
        | .read => opened (.file place 0 false false)
        | .write => if s.has 'C' then pure (.error .alreadyExists) else emptied
        | .overwrite => emptied
        | .append => opened (.file place 0 true true)
        | .readWrite => opened (.file place 0 true false)
    | .error failure =>
      if opening == .read then pure (.error failure)
      else match w.files.write w.here path (s.modeOf 0o666) [] with
        | .error failure => pure (.error failure)
        | .ok files =>
          set (s.withFiles files)
          match files.resolve w.here path with
          | .ok place => opened (.file place 0 true (opening == .append))
          | .error failure => pure (.error failure)

def readFile (name : Chars) : Task (Except SystemFailure Bytes) := do
  match streamOf? name with
  | some number => takeInput number
  | none =>
    let w := (← get).world
    pure (w.files.read w.here (Shell.pathOf name))

end TargetQuery.Script
