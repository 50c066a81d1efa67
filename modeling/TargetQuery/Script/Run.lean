import TargetQuery.Script.Batch
import TargetQuery.Script.BuiltIn
import TargetQuery.Script.Surroundings

/-!
# Running scripts

What commands do to the state of a shell. Processes run one after the other, each to its end: one
that is to run beside others runs before them. The fuel bounds how deep commands are nested and how
often loops go round; a script that uses it up ends where it is.

This shell only stands in for the programs of a machine (see `TargetQuery.Script.Launch`).
-/

namespace TargetQuery.Script

open BuiltIn (task)

structure Stance where
  /-- Its outcome is looked at, so that a failure does not end the script. -/
  tested : Bool := false
  /-- Nothing follows it, so that a program may take the place of the shell. -/
  last : Bool := false
  /-- It is read from a file, of which the lines can be shown. -/
  fromFile : Bool := false

def setStatus (status : Nat) : Run Unit := modify fun s => { s with status }

/-- Runs something, and says why it stopped if it did not come to its end. -/
def attempt (act : Run Unit) : Run (Option Stop) := do
  match ← task act.run with
  | .ok () => pure none
  | .error stop => pure (some stop)

def resume : Option Stop → Run Unit
  | none => pure ()
  | some stop => throw stop

/-- Runs something, and sets the streams of the program back afterwards. -/
def keepingStreams (act : Run Unit) : Run Unit := do
  let { descriptors, .. } ← get
  let stop ← attempt act
  modify fun s => { s with descriptors }
  resume stop

/-- The outcome of a process that a signal has ended. -/
def statusOfSignal (n : Nat) : Nat := 128 + n

/-- Runs a process of its own, of which only what is shared remains, its outcome, and the signal
that ended it, if one did. A signal to a process further out ends that one. -/
def inProcess (act : Run Unit) : Run (Nat × Option Nat) := do
  let outer ← get
  let process := outer.nextProcess
  let guarded := outer.traps.map (fun t => (outer.process, t.1)) ++ outer.guarded
  set { outer with process, parent := outer.process, nextProcess := process + 1, guarded }
  let stop ← attempt act
  let inner ← get
  let (mine, sent) := inner.sent.partition (·.1 == outer.process)
  let isAwaited (n : Nat) : Bool := (outer.traps.lookup n).any fun action => !action.isEmpty
  let arrived : List Nat := (mine.map Prod.snd).filter isAwaited
  set { outer with
    world := { outer.world with files := inner.world.files }
    streams := inner.streams, nextProcess := inner.nextProcess
    sent, pending := outer.pending ++ arrived }
  match stop with
  | some (.killed p n) =>
    if p == process then pure (statusOfSignal n, some n) else throw (.killed p n)
  | _ => pure (inner.status % 256, none)

/-- Says that a signal has ended a process, if that is worth saying. -/
def report (signal? : Option Nat) : Task Unit := do
  match signal? with
  | some n => if !Signal.isSilent n then complain (Signal.description n ++ "\n").toList
  | none => pure ()

/-- A subshell does not carry out the traps of the shell; what is ignored stays ignored. -/
def withoutTraps (s : Shell) : Shell := { s with traps := s.traps.filter (·.2.isEmpty) }

/-! ### Redirections -/

def openSource (content : Bytes) : Task Nat := do
  let (i, s) := (← get).opened (.source content)
  set s
  pure i

def openSink : Task Nat := do
  let (i, s) := (← get).opened (.sink [])
  set s
  pure i

def direct (number : Nat) (goal? : Option Nat) : Task Unit := modify fun s => s.direct number goal?

def redirect (run : Command → Run Chars) (fuel : Nat) : Redirection → Run Unit
  | .file number opening word => do
    let name ← expandName run fuel word
    match ← task (openFile name opening) with
    | .ok i => task (direct number (some i))
    | .error failure =>
      let creating := opening != .read
      let verb := if creating then "cannot create " else "cannot open "
      fault (verb.toList ++ name ++ ": ".toList ++ (openingReason creating failure).toList)
  | .duplicate number word => do
    let name ← expandName run fuel word
    if name == ['-'] then task (direct number none)
    else match name, natural? name with
      | [_], some other =>
        match (← get).descriptors.lookup other with
        | some i => task (direct number (some i))
        | none => fault (name ++ ": Bad file descriptor".toList)
      | _, _ => fault "Bad fd number".toList
  | .document number n => do
    let word := ((← get).documents.lookup n).getD []
    let text ← expandText run fuel word
    let i ← task (openSource (toBytes text))
    task (direct number (some i))

/-! ### Variables of a command -/

/-- Gives a variable a value for programs, too. -/
def assignExported (name value : Chars) : Run Unit := do
  assign name value
  modify fun s =>
    match s.binding? name with
    | some v => s.withVariable { v with exported := true }
    | none => s

def putBack (old : List (Chars × Option Variable)) : Task Unit :=
  modify fun s => old.foldl (fun s v =>
    match v.2 with
    | some old => s.withVariable old
    | none => s.withoutVariable v.1) s

def showTrace (values : List (Chars × Chars)) (arguments : List Chars) : Task Unit := do
  let s ← get
  if s.has 'x' then
    let front := (s.value? "PS4".toList).getD []
    let parts := values.map (fun v => v.1 ++ '=' :: v.2) ++ arguments
    complain (front ++ [' '].intercalate parts ++ ['\n'])

/-- Whether the arguments of a command may be assignments, whose values are not cut into fields. -/
def takesAssignments (name : Chars) : Bool :=
  ["export", "readonly", "local"].contains (String.ofList name)

def initialVariables (s : Shell) : List Variable :=
  let given := s.world.environment.filterMap fun v =>
    let name := v.1.toList
    if isName name then some { name, value? := some (ofBytes v.2), exported := true : Variable }
    else none
  let usual := "/usr/local/sbin:/usr/local/bin:/usr/sbin:/usr/bin:/sbin:/bin".toList
  let path : List Variable := if given.any (·.name == "PATH".toList) then []
    else [{ name := "PATH".toList, value? := some usual }]
  let version : List Variable := if !s.isLarge then []
    else [{ name := "BASH_VERSION".toList, value? := some "5.2.15(1)-release".toList }]
  let own : List (String × Chars × Bool) :=
    [("IFS", [' ', '\t', '\n'], false), ("OPTIND", ['1'], false),
      ("PPID", ofNat s.parent, false), ("PS1", "# ".toList, false), ("PS2", "> ".toList, false),
      ("PS4", "+ ".toList, false), ("PWD", ofBytes s.world.directory.bytes, true)]
  let names := own.map fun v => v.1.toList
  given.filter (fun v => !names.contains v.name) ++ path
    ++ version ++ own.map fun v => { name := v.1.toList, value? := some v.2.1, exported := v.2.2 }

def fresh (s : Shell) (zero : Chars) : Shell :=
  let { world, streams, nextProcess, process, parent, descriptors, mask, guarded, sent, .. } := s
  { world, streams, nextProcess, process, parent, descriptors, mask, guarded, sent
    mainProcess := process, zero
    traps := (withoutTraps s).traps }

/-- The script that a file holds, in which zero bytes have no place. -/
def scriptOf (content : Bytes) : Chars := ofBytes (content.filter (· != Ascii.nul))

mutual

def runCommand : Nat → Stance → Command → Run Unit
  | 0, _, _ => throw .exit
  | fuel + 1, stance, c => do
    let checked (act : Run Unit) : Run Unit := do
      act
      runTraps fuel
      let s ← get
      if s.status != 0 && s.has 'e' && !stance.tested then throw .exit
    match c with
    | .nothing => pure ()
    | .simple line assignments words rs =>
      checked (runSimple fuel stance line assignments words rs)
    | .redirected line c rs =>
      modify fun s => { s with line }
      keepingStreams do
        match ← attempt (rs.forM (redirect (outputOf fuel) fuel)) with
        | some .fault => pure ()
        | some stop => throw stop
        | none => runCommand fuel { stance with last := false } c
    | .subshell line c rs => checked do
      modify fun s => { s with line }
      let (status, signal?) ← inProcess (runSubshell fuel stance c rs)
      task (report signal?)
      setStatus status
    | .background line c rs => checked do
      if line != 0 then modify fun s => { s with line }
      let process := (← get).nextProcess
      let (status, _) ← inProcess do
        let i ← task (openSource [])
        task (direct 0 (some i))
        runSubshell fuel { stance with tested := false } c rs
      modify fun s =>
        { s with ended := (process, status) :: s.ended, lastBackground := some process }
      setStatus 0
    | .pipeline cs => checked (runPipeline fuel stance none cs)
    | .negated c =>
      runCommand fuel { tested := true } c
      modify fun s => { s with status := if s.status == 0 then 1 else 0 }
    | .both c d =>
      runCommand fuel { tested := true } c
      if (← get).status == 0 then runCommand fuel stance d
    | .either c d =>
      runCommand fuel { tested := true } c
      if (← get).status != 0 then runCommand fuel stance d
    | .sequence c d =>
      runCommand fuel { stance with last := false } c
      runCommand fuel stance d
    | .choice condition yes no =>
      runCommand fuel { tested := true } condition
      if (← get).status == 0 then
        setStatus 0
        runCommand fuel stance yes
      else
        setStatus 0
        runCommand fuel stance no
    | .loop wanted condition body =>
      let inside : Stance := { stance with last := false }
      modify fun s => { s with loops := s.loops + 1 }
      let stop ← attempt (runLoop fuel inside wanted condition body 0)
      modify fun s => { s with loops := s.loops - 1 }
      resume stop
    | .each line name words body =>
      modify fun s => { s with line }
      let parts ← words.mapM (expandFields (outputOf fuel) fuel)
      let inside : Stance := { stance with last := false }
      modify fun s => { s with loops := s.loops + 1 }
      setStatus 0
      let stop ← attempt (runEach fuel inside name body parts.flatten)
      modify fun s => { s with loops := s.loops - 1 }
      resume stop
    | .select line word branches =>
      modify fun s => { s with line }
      let text ← expandValue (outputOf fuel) fuel word
      setStatus 0
      runBranches fuel stance text branches
    | .define _ name body =>
      modify fun s =>
        { s with functions := (name, body) :: s.functions.filter (·.1 != name) }
      setStatus 0

def runSubshell : Nat → Stance → Command → List Redirection → Run Unit
  | 0, _, _, _ => throw .exit
  | fuel + 1, stance, c, rs => do
    modify withoutTraps
    withExit fuel do
      rs.forM (redirect (outputOf fuel) fuel)
      runCommand fuel { stance with last := true } c

/-- Runs something to the end of a process, and carries out what is to be done on exit. -/
def withExit : Nat → Run Unit → Run Unit
  | 0, _ => throw .exit
  | fuel + 1, act => do
    let { descriptors, .. } ← get
    match ← attempt act with
    | some (.killed p n) => throw (.killed p n)
    | stop =>
      -- A script that has been exchanged for a program does nothing on exit.
      let s ← get
      match s.traps.lookup 0 with
      | some action =>
        let atEnd := stop.isNone
        set { s with
          traps := s.traps.filter (·.1 != 0), builtIn := none
          descriptors := if atEnd then s.descriptors else descriptors }
        let { status, .. } := s
        match ← attempt (runText fuel {} action) with
        | none => setStatus status
        | some (.killed p n) => throw (.killed p n)
        | some _ => pure ()
      | none => pure ()

/-- The output of a command that takes its place, without line ends behind it. -/
def outputOf : Nat → Command → Run Chars
  | 0, _ => throw .exit
  | fuel + 1, c => do
    let i ← task openSink
    let (status, signal?) ← inProcess do
      task (direct 1 (some i))
      runSubshell fuel {} c []
    task (report signal?)
    modify fun s => { s with outputStatus := status }
    let text := (ofBytes ((← get).collected i)).filter (· != Char.ofNat 0)
    pure (text.reverse.dropWhile (· == '\n')).reverse

/-- Runs commands each of which reads what the one in front has written. -/
def runPipeline : Nat → Stance → Option Bytes → List Command → Run Unit
  | 0, _, _, _ => throw .exit
  | _ + 1, _, _, [] => pure ()
  | fuel + 1, stance, input?, c :: more => do
    let sink? ← if more.isEmpty then pure none else (some <$> task openSink)
    let (status, signal?) ← inProcess do
      match input? with
      | some input =>
        let i ← task (openSource input)
        task (direct 0 (some i))
      | none => pure ()
      if sink?.isSome then task (direct 1 sink?)
      runSubshell fuel stance c []
    task (report signal?)
    match sink? with
    | none => setStatus status
    | some i =>
      let output := (← get).collected i
      runPipeline fuel stance (some output) more

/-- Goes on with a loop, whose body has had the given outcome. -/
def runLoop : Nat → Stance → Bool → Command → Command → Nat → Run Unit
  | 0, _, _, _, _, _ => throw .exit
  | fuel + 1, stance, wanted, condition, body, status => do
    let once : Run Bool := do
      runCommand fuel { tested := true } condition
      if ((← get).status == 0) == wanted then
        runCommand fuel stance body
        pure true
      else
        setStatus status
        pure false
    match ← task once.run with
    | .ok true => runLoop fuel stance wanted condition body (← get).status
    | .ok false => pure ()
    | .error (.again 1) => runLoop fuel stance wanted condition body (← get).status
    | .error (.again (n + 2)) => throw (.again (n + 1))
    | .error (.leave (n + 2)) => throw (.leave (n + 1))
    | .error (.leave _) => pure ()
    | .error stop => throw stop

def runEach : Nat → Stance → Chars → Command → List Chars → Run Unit
  | 0, _, _, _, _ => throw .exit
  | _ + 1, _, _, _, [] => pure ()
  | fuel + 1, stance, name, body, word :: more => do
    assign name word
    match ← attempt (runCommand fuel stance body) with
    | none | some (.again 0) | some (.again 1) => runEach fuel stance name body more
    | some (.again (n + 2)) => throw (.again (n + 1))
    | some (.leave (n + 2)) => throw (.leave (n + 1))
    | some (.leave _) => pure ()
    | some stop => throw stop

/-- Runs the first branch that describes a text. -/
def runBranches : Nat → Stance → Chars → List Branch → Run Unit
  | 0, _, _, _ => throw .exit
  | _ + 1, _, _, [] => pure ()
  | fuel + 1, stance, text, .mk patterns body :: more => do
    let fits (found : Bool) (w : Word) : Run Bool := do
      if found then pure true
      else pure (accepts (← expandPattern (outputOf fuel) fuel w) text)
    if ← patterns.foldlM fits false then runCommand fuel stance body
    else runBranches fuel stance text more

/-- Runs a simple command: expands its words, leads its streams elsewhere, sets its variables, and
runs what its first word names. -/
def runSimple : Nat → Stance → Nat → List Word → List Word → List Redirection → Run Unit
  | 0, _, _, _, _, _ => throw .exit
  | fuel + 1, stance, line, assignments, words, rs => do
    modify fun s => { s with line, outputStatus := 0 }
    let expand (done : List Chars) (w : Word) : Run (List Chars) := do
      let isValue := (done.head?.any takesAssignments) && (assignment? w).isSome
      let fields ← if isValue then (do pure [← expandValue (outputOf fuel) fuel w])
        else expandFields (outputOf fuel) fuel w
      pure (done ++ fields)
    let arguments ← words.foldlM expand []
    let special := (arguments.head?.any isSpecial)
    let assigned (assign : Chars → Chars → Run Unit) (w : Word) : Run (Chars × Chars) := do
      match assignment? w with
      | some (name, value) =>
        let text ← expandValue (outputOf fuel) fuel value
        assign name text
        pure (name, text)
      | none => pure ([], [])
    let { descriptors := outer, .. } ← get
    let isExec := arguments.head? == some "exec".toList
    let act : Run Unit := do
      match ← attempt (rs.forM (redirect (outputOf fuel) fuel)) with
      | some .fault => if special then throw .fault
      | some stop => throw stop
      | none =>
        match arguments with
        | [] =>
          let values ← assignments.mapM (assigned assign)
          if !values.isEmpty then task (showTrace values [])
          setStatus (← get).outputStatus
        | name :: arguments =>
          let before ← get
          let values ← assignments.mapM (assigned (if special then assign else assignExported))
          let { descriptors := inner, .. } ← get
          modify fun s => { s with descriptors := outer }
          task (showTrace values (name :: arguments))
          modify fun s => { s with descriptors := inner }
          if special then runNamed fuel stance true name arguments
          else
            let stop ← attempt (runNamed fuel stance true name arguments)
            task (putBack (values.map fun v => (v.1, before.binding? v.1)))
            resume stop
    if isExec then
      let stop ← attempt act
      match stop with
      | some .fault => modify fun s => { s with descriptors := outer }
      | _ => pure ()
      resume stop
    else keepingStreams act

/-- Runs what a name stands for: a function, a built-in command or a program. -/
def runNamed : Nat → Stance → Bool → Chars → List Chars → Run Unit
  | 0, _, _, _, _ => throw .exit
  | fuel + 1, stance, functions, name, arguments => do
    let s ← get
    match if functions then s.functions.lookup name else none with
    | some body => runFunction fuel stance body arguments
    | none =>
      if BuiltIn.isBuiltIn name then
        let special := isSpecial name && functions
        let outer := s.builtIn
        let stop ← attempt do
          modify fun s => { s with builtIn := some name }
          runBuiltIn fuel stance name arguments
        modify fun s => { s with builtIn := outer }
        match stop with
        | some .fault => if special then throw .fault
        | stop => resume stop
        runTraps fuel
      else
        runProgram fuel stance name arguments

/-- Carries out what is to be done on the signals that have come. -/
def runTraps : Nat → Run Unit
  | 0 => throw .exit
  | fuel + 1 => do
    let s ← get
    match s.pending with
    | [] => pure ()
    | n :: more =>
      set { s with pending := more }
      let { status, .. } := s
      runText fuel {} ((s.traps.lookup n).getD [])
      setStatus status
      runTraps fuel

def runFunction : Nat → Stance → Command → List Chars → Run Unit
  | 0, _, _, _ => throw .exit
  | fuel + 1, stance, body, arguments => do
    let { arguments := outer, loops, optionOffset, .. } ← get
    modify fun s =>
      { s with arguments, loops := 0, optionOffset := 0, scopes := [] :: s.scopes }
    let stop ← attempt (runCommand fuel { stance with last := false } body)
    modify fun s =>
      let restored := (s.scopes.headD []).foldl (fun s v =>
        if v.value?.isNone && !v.exported && !v.readonly then s.withoutVariable v.name
        else s.withVariable v) s
      { restored with
        arguments := outer, loops, optionOffset, scopes := s.scopes.tail }
    match stop with
    | some .back => pure ()
    | stop => resume stop

def runBuiltIn : Nat → Stance → Chars → List Chars → Run Unit
  | 0, _, _, _ => throw .exit
  | fuel + 1, stance, name, arguments => do
    let s ← get
    let status (given : List Chars) : Run Unit := do
      match given with
      | [] => pure ()
      | a :: _ => setStatus (← BuiltIn.number a)
    let levels : Run Nat := do
      match arguments with
      | [] => pure 1
      | a :: _ =>
        let n ← BuiltIn.number a
        if n == 0 then fault ("Illegal number: ".toList ++ a) else pure n
    match String.ofList name with
    | "exit" =>
      status arguments
      throw .exit
    | "return" =>
      status arguments
      throw .back
    | "break" =>
      let n ← levels
      setStatus 0
      if s.loops != 0 then throw (.leave (min n s.loops))
    | "continue" =>
      let n ← levels
      setStatus 0
      if s.loops != 0 then throw (.again (min n s.loops))
    | "eval" =>
      let arguments := if arguments.head? == some ['-', '-'] then arguments.tail else arguments
      setStatus 0
      modify fun t => { t with status := if arguments.isEmpty then 0 else s.status }
      runText fuel { tested := stance.tested } ([' '].intercalate arguments)
    | "." => runFile fuel stance arguments
    | "exec" =>
      match if arguments.head? == some ['-', '-'] then arguments.tail else arguments with
      | [] => setStatus 0
      | name :: arguments =>
        match Image.ofName { s.world with environment := s.environment } s.searchPath .texts
            (toBytes name) (arguments.map toBytes) with
        | .error failure =>
          missing name failure
          throw .exit
        | .ok image =>
          modify fun s =>
            { s with traps := s.traps.filter (·.2.isEmpty), world :=
                { s.world with environment := s.environment } }
          runImage fuel image
          modify fun s => { s with traps := [] }
          throw .exit
    | "command" =>
      match arguments with
      | ['-', 'v'] :: name :: _ => setStatus (← BuiltIn.describe false name)
      | ['-', 'V'] :: name :: _ => setStatus (← BuiltIn.describe true name)
      | ['-', 'p'] :: name :: arguments | ['-', '-'] :: name :: arguments | name :: arguments =>
        modify fun t => { t with builtIn := none }
        runNamed fuel stance false name arguments
      | [] => setStatus 0
    | "type" =>
      let one (status : Nat) (name : Chars) : Run Nat := do
        pure (max status (← BuiltIn.describe true name))
      setStatus (← arguments.foldlM one 0)
    | known =>
      match BuiltIn.table.lookup known with
      | some act => setStatus (← act arguments)
      | none => pure ()

def missing : Chars → SystemFailure → Run Unit
  | name, failure => do
    let s ← get
    let absent := [.notFound, .notADirectory].contains failure
    let tooMuch := [.nameTooLong, .tooManyLevels].contains failure
    let why := if absent then (if s.isLarge then "command not found".toList else "not found".toList)
      else Utility.reason failure
    task (warn (name ++ ": ".toList ++ why))
    setStatus (if absent || tooMuch then 127 else 126)

def runFile : Nat → Stance → List Chars → Run Unit
  | 0, _, _ => throw .exit
  | fuel + 1, stance, arguments => do
    match arguments with
    | [] => pure ()
    | name :: _ =>
      let s ← get
      let path? : Option Chars :=
        if name.contains '/' then some name
        else
          let found := (Image.candidates s.searchPath (toBytes name)).find? fun p =>
            s.world.files.isFile s.world.here p
          found.map fun p => ofBytes p.bytes
      match path? with
      | none => fault (name ++ ": not found".toList)
      | some path =>
        match ← task (readFile path) with
        | .error .isADirectory => setStatus 0
        | .error failure =>
          fault ("cannot open ".toList ++ path ++ ": ".toList
            ++ (openingReason false failure).toList)
        | .ok content =>
          let { builtIn, .. } ← get
          modify fun s => { s with builtIn := none, status := 0 }
          let inside : Stance := { tested := stance.tested, fromFile := true }
          let stop ← attempt (runText fuel inside (scriptOf content))
          modify fun s => { s with builtIn }
          match stop with
          | some .back => pure ()
          | stop => resume stop

/-- Runs a program in a process of its own; or in the place of the shell, if nothing follows. -/
def runProgram : Nat → Stance → Chars → List Chars → Run Unit
  | 0, _, _, _ => throw .exit
  | fuel + 1, stance, name, arguments => do
    let s ← get
    let world := { s.world with environment := s.environment }
    match Image.ofName world s.searchPath .texts (toBytes name) (arguments.map toBytes) with
    | .error failure =>
      missing name failure
      -- A name that leads to no program counts as absent, for whatever reason.
      let place? := Image.whereIs? world s.searchPath (toBytes name)
      if !name.contains '/' && place?.isNone then setStatus 127
    | .ok image =>
      let start : Run Unit := do
        modify fun s => { s with world }
        runImage fuel image
      if stance.last && s.traps.isEmpty then
        let stop ← attempt start
        let after ← get
        set { s with
          world := { s.world with files := after.world.files }
          streams := after.streams, nextProcess := after.nextProcess, status := after.status
          sent := after.sent }
        resume (match stop with
          | some (.killed p n) => some (.killed p n)
          | _ => none)
      else
        let (status, signal?) ← inProcess start
        task (report signal?)
        setStatus status

/-- Runs a program of the machine to its end, in the process at hand. -/
def runImage : Nat → Image → Run Unit
  | 0, _ => throw .exit
  | fuel + 1, image => do
    let zero := ofBytes image.zero
    if shellNames.contains image.name then
      modify fun s => fresh s zero
      modify fun s => { s with isLarge := image.name == "bash" }
      modify fun s => { s with bindings := initialVariables s }
      withExit fuel (runShell fuel (image.arguments.map ofBytes))
    else if image.name == "env" then
      match readSurroundings (← get).world.environment (unfolded image.arguments) with
      | .error why => setStatus (← task (Utility.refuse zero why 125))
      | .ok { environment, command := [] } =>
        modify fun s => { s with world := { s.world with environment } }
        setStatus (← task (Utility.printenv zero []))
      | .ok { environment, command := name :: arguments } =>
        modify fun s => { s with world := { s.world with environment } }
        let { world := w, .. } ← get
        match Image.ofName w (Image.searchPath w) .always name arguments with
        | .ok image => runImage fuel image
        | .error failure =>
          let shown := ofBytes name
          let why := Utility.quoted shown ++ ": ".toList ++ Utility.reason failure
          task (Utility.complainAs zero why)
          if failure == .notFound && shown.any isSpace then
            task (Utility.complainAs zero
              "use -[v]S to pass options in shebang lines".toList)
          setStatus (if failure == .notFound then 127 else 126)
    else if image.name == "xargs" then
      match readBatchOptions {} (image.arguments.map ofBytes) with
      | .error why => setStatus (← task (Utility.refuse zero why))
      | .ok options =>
        let input := (← task (Utility.contentOf ['-'])).toOption.getD []
        let (commands, why?) := options.commands (ofBytes input)
        let { descriptors, .. } ← get
        let i ← task (openSource [])
        task (direct 0 (some i))
        let status ← runBatch fuel zero options.traced commands
        modify fun s => { s with descriptors }
        if let some why := why? then task (Utility.complainAs zero why)
        setStatus (if why?.isSome then 1 else status)
    else match utilities.lookup image.name with
      | some utility => setStatus (← task (utility zero (image.arguments.map ofBytes)))
      | none => setStatus 0

/-- Runs commands one after the other, each as a process of its own, and gives the status for all.
A command that cannot be run is the last one, and so is one that asks for that by its status. -/
def runBatch : Nat → Chars → Bool → List (List Chars) → Run Nat
  | 0, _, _, _ => pure 0
  | _, _, _, [] | _, _, _, [] :: _ => pure 0
  | fuel + 1, zero, traced, (name :: arguments) :: rest => do
    let words := (name :: arguments).map Utility.shown
    if traced then task (complain ([' '].intercalate words ++ ['\n']))
    let { world := w, .. } ← get
    let stop (why : Chars) (status : Nat) : Run Nat := do
      task (Utility.complainAs zero (name ++ ": ".toList ++ why))
      pure status
    match Image.ofName w (Image.searchPath w) .always (toBytes name) (arguments.map toBytes) with
    | .error failure => stop (Utility.reason failure) (if failure == .notFound then 127 else 126)
    | .ok image =>
      let (status, signal?) ← inProcess (runImage fuel image)
      match signal?, status with
      | some n, _ => stop ("terminated by signal ".toList ++ ofNat n) 125
      | none, 255 => stop "exited with status 255; aborting".toList 124
      | none, status =>
        let later ← runBatch fuel zero traced rest
        pure (if status == 0 || 123 < later then later else 123)

def runShell : Nat → List Chars → Run Unit
  | 0, _ => throw .exit
  | fuel + 1, arguments => do
    modify fun s => { s with line := 0 }
    let (isText, rest) ← shellOptions fuel false arguments
    let script (text : Chars) (stance : Stance) : Run Unit := do
      modify fun s => { s with line := 1 }
      runText fuel stance text
    if !isText && ((← get).has 's' || rest.isEmpty) then
      modify fun s => { s with arguments := rest }
      BuiltIn.setOption true 's'
      let input := (← task (takeInput 0)).toOption.getD []
      script (scriptOf input) { fromFile := true }
    else match isText, rest with
    | false, [] => pure ()
    | true, [] => fault "-c requires an argument".toList
    | true, text :: rest =>
      match rest with
      | zero :: arguments => modify fun s => { s with zero, arguments }
      | [] => pure ()
      script text { last := true }
    | false, path :: arguments =>
      match ← task (readFile path) with
      | .ok content =>
        modify fun s => { s with zero := path, arguments }
        script (scriptOf content) { fromFile := true }
      | .error .isADirectory => modify fun s => { s with zero := path, arguments }
      | .error failure =>
        fault ("cannot open ".toList ++ path ++ ": ".toList
          ++ (openingReason false failure).toList)

/-- Sets the options in front of the arguments of a shell, and says whether its script is among the
arguments. -/
def shellOptions : Nat → Bool → List Chars → Run (Bool × List Chars)
  | 0, isText, arguments => pure (isText, arguments)
  | fuel + 1, isText, arguments => do
    match arguments with
    | ['-', '-'] :: rest | ['-'] :: rest => pure (isText, rest)
    | (sign :: letters) :: rest =>
      if (sign == '-' || sign == '+') && !letters.isEmpty then
        let on := sign == '-'
        (letters.filter fun c => !"col".toList.contains c).forM (BuiltIn.setOption on)
        let isText := isText || (on && letters.contains 'c')
        if letters.contains 'o' then
          BuiltIn.setByName on rest.head?
          shellOptions fuel isText rest.tail
        else shellOptions fuel isText rest
      else pure (isText, arguments)
    | arguments => pure (isText, arguments)

def runText : Nat → Stance → Chars → Run Unit
  | 0, _, _ => throw .exit
  | fuel + 1, stance, text => runSource fuel stance { rest := text }

def runSource : Nat → Stance → Source → Run Unit
  | 0, _, _ => throw .exit
  | fuel + 1, stance, source => do
    let s ← get
    let { aliases, nextDocument, .. } := s
    match nextCommand { source with aliases, nextDocument, documents := [] } with
    | .error mistake =>
      modify fun s => { s with line := mistake.line }
      fault ("Syntax error: " ++ mistake.text).toList
    | .ok (c, next) =>
      if s.has 'v' && stance.fromFile then
        task (complain (source.rest.take (source.rest.length - next.rest.length)))
      modify fun s =>
        { s with documents := next.documents ++ s.documents, nextDocument := next.nextDocument }
      if !s.has 'n' then runCommand fuel { stance with last := stance.last && next.isDone } c
      if next.isDone then pure () else runSource fuel stance next

end

end TargetQuery.Script
