import TargetQuery.Script.Field
import TargetQuery.Script.Utility.Basic

/-!
# Utilities for files

Programs that make, remove, copy and list files and directories, and programs that take paths apart.
-/

namespace TargetQuery.Script.Utility

/-- Changes the files for each operand. What cannot be done is complained about. -/
def forEach (zero : Chars) (names : List Chars) (what : String)
    (act : World → Chars → Except SystemFailure FileTree) : Task Nat := do
  let one (status : Nat) (name : Chars) : Task Nat := do
    let s ← get
    match act s.world name with
    | .ok files =>
      set (s.withFiles files)
      pure status
    | .error failure =>
      complainAs zero (what.toList ++ quoted name ++ ": ".toList ++ reason failure)
      pure 1
  names.foldlM one 0

def mkdir (zero : Chars) (arguments : List Chars) : Task Nat :=
  withOptions "pv" "m" zero arguments fun o => do
    if o.operands.isEmpty then refuse zero "missing operand".toList
    else if o.has 'p' then
      let one (status : Nat) (name : Chars) : Task Nat := do
        let s ← get
        match s.world.files.makeAllDirectories s.world.here (Shell.pathOf name) with
        | .ok files =>
          set (s.withFiles files)
          pure status
        | .error failure =>
          -- The first part of the path that is no directory is to blame.
          let fronts := (List.range (name.length + 1)).map name.take
          let blamed := (fronts.find? fun front =>
            s.world.files.isFile s.world.here (Shell.pathOf front)).getD name
          complainAs zero ("cannot create directory ".toList ++ quoted blamed ++ ": ".toList
            ++ reason failure)
          pure 1
      o.operands.foldlM one 0
    else forEach zero o.operands "cannot create directory " fun w name =>
      w.files.makeDirectory w.here (Shell.pathOf name)

def without (w : World) (place : Place) : FileTree :=
  ⟨w.files.entries.filter fun e => !place.isPrefixOf e.1⟩

def rmdir (zero : Chars) (arguments : List Chars) : Task Nat :=
  withOptions "pv" "" zero arguments fun o =>
    if o.operands.isEmpty then refuse zero "missing operand".toList
    else forEach zero o.operands "failed to remove " fun w name =>
      match w.files.locate w.here (Shell.pathOf name) with
      | .error failure => .error failure
      | .ok (_, .file ..) | .ok (_, .device _) => .error .notADirectory
      | .ok (place, .directory) =>
        if (w.files.below place).isEmpty then .ok (w.files.erase place)
        else .error (.other "Directory not empty")

/-- Removes files, and directories with all that is in them if it is asked to. -/
def rm (zero : Chars) (arguments : List Chars) : Task Nat :=
  withOptions "rRfivd" "" zero arguments fun o =>
    if o.operands.isEmpty then
      if o.has 'f' then pure 0 else refuse zero "missing operand".toList
    else forEach zero o.operands "cannot remove " fun w name =>
      match w.files.locate w.here (Shell.pathOf name) with
      | .error .notFound => if o.has 'f' then .ok w.files else .error .notFound
      | .error failure => .error failure
      | .ok (place, .file ..) | .ok (place, .device _) => .ok (w.files.erase place)
      | .ok (place, .directory) =>
        if o.has 'r' || o.has 'R' then .ok (without w place) else .error .isADirectory

def touch (zero : Chars) (arguments : List Chars) : Task Nat :=
  withOptions "acm" "drt" zero arguments fun o => do
    if o.operands.isEmpty then refuse zero "missing file operand".toList
    else
      let mode := (← get).modeOf 0o666
      forEach zero o.operands "cannot touch " fun w name =>
        let path := Shell.pathOf name
        if w.files.exists? w.here path || o.has 'c' then .ok w.files
        else w.files.write w.here path mode []

def lastName (path : Chars) : Chars :=
  let trimmed := (path.reverse.dropWhile (· == '/')).reverse
  if trimmed.isEmpty then path.take 1 else (splitAt '/' trimmed).getLast?.getD []

/-- Where files are copied or moved to: into the last operand if it is a directory, otherwise to
that name. -/
def targetOf (w : World) (goal name : Chars) : Chars :=
  if w.files.isDirectory w.here (Shell.pathOf goal) then goal ++ '/' :: lastName name else goal

/-- The tree with everything at a place, and below it, at another place too. -/
def copied (files : FileTree) (start goal : Place) : FileTree :=
  let inside := files.entries.filter fun e => start.isPrefixOf e.1
  inside.foldl (fun files e => files.put (goal ++ e.1.drop start.length) e.2) files

/-- The operands, the last of which says where the others go; several of them only go into a
directory. -/
def splitTarget (zero : Chars) (operands : List Chars)
    (act : List Chars → Chars → Task Nat) : Task Nat := do
  match operands.reverse with
  | [] => refuse zero "missing file operand".toList
  | [one] => refuse zero ("missing destination file operand after ".toList ++ quoted one)
  | [goal, name] => act [name] goal
  | goal :: names =>
    let { world := w, .. } ← get
    let failure? : Option SystemFailure := match w.files.locate w.here (Shell.pathOf goal) with
      | .ok (_, .directory) => none
      | .ok _ => some .notADirectory
      | .error failure => some failure
    match failure? with
    | none => act names.reverse goal
    | some failure =>
      complainAs zero ("target ".toList ++ quoted goal ++ ": ".toList ++ reason failure)
      pure 1

/-- Copies files, and directories if it is asked to. -/
def cp (zero : Chars) (arguments : List Chars) : Task Nat :=
  withOptions "arRfpvn" "t" zero arguments fun o =>
    splitTarget zero o.operands fun names goal => do
      let one (status : Nat) (name : Chars) : Task Nat := do
        let s ← get
        let w := s.world
        let goal := targetOf w goal name
        let failed (what : String) (name : Chars) (failure : SystemFailure) : Task Nat := do
          complainAs zero (what.toList ++ quoted name ++ ": ".toList ++ reason failure)
          pure 1
        match w.files.locate w.here (Shell.pathOf name) with
        | .error failure => failed "cannot stat " name failure
        | .ok (place, .directory) =>
          if !(o.has 'r' || o.has 'R' || o.has 'a') then
            complainAs zero ("-r not specified; omitting directory ".toList ++ quoted name)
            pure 1
          else if w.files.isFile w.here (Shell.pathOf goal) then
            complainAs zero ("cannot overwrite non-directory ".toList ++ quoted goal
              ++ " with directory ".toList ++ quoted name)
            pure 1
          else match w.files.resolve w.here (Shell.pathOf goal) with
            | .error failure => failed "cannot create directory " goal failure
            | .ok goalPlace =>
              set (s.withFiles (copied w.files place goalPlace))
              pure status
        | .ok (place, node) =>
          let (mode, content?) := match node with
            | .file mode content => (mode, if FileTree.modeReads mode then some content else none)
            | _ => (0o666, some [])
          let content := content?.getD []
          if content?.isNone then
            complainAs zero ("cannot open ".toList ++ quoted name
              ++ " for reading: Permission denied".toList)
            pure 1
          else if (w.files.locate w.here (Shell.pathOf goal)).toOption.any (·.1 == place) then
            complainAs zero (quoted name ++ " and ".toList ++ quoted goal
              ++ " are the same file".toList)
            pure 1
          else match w.files.write w.here (Shell.pathOf goal) (s.modeOf mode) content with
          | .error .notADirectory => failed "cannot stat " goal .notADirectory
          | .error .isADirectory => failed "cannot create regular file " goal .notADirectory
          | .error failure => failed "cannot create regular file " goal failure
          | .ok files =>
            set (s.withFiles files)
            pure status
      names.foldlM one 0

def mv (zero : Chars) (arguments : List Chars) : Task Nat :=
  withOptions "fivn" "t" zero arguments fun o =>
    splitTarget zero o.operands fun names goal => do
      let one (status : Nat) (name : Chars) : Task Nat := do
        let s ← get
        let w := s.world
        let goal := targetOf w goal name
        match w.files.locate w.here (Shell.pathOf name) with
        | .error failure =>
          complainAs zero ("cannot stat ".toList ++ quoted name ++ ": ".toList ++ reason failure)
          pure 1
        | .ok (place, node) =>
          let failed (failure : SystemFailure) : Task Nat := do
            complainAs zero ("cannot move ".toList ++ quoted name ++ " to ".toList ++ quoted goal
              ++ ": ".toList ++ reason failure)
            pure 1
          let isTrailing := node != .directory && goal.getLast? == some '/'
          match w.files.resolve w.here (Shell.pathOf goal) with
          | .error .notADirectory =>
            complainAs zero ("cannot stat ".toList ++ quoted goal ++ ": Not a directory".toList)
            pure 1
          | .error failure => failed (if isTrailing then .notADirectory else failure)
          | .ok goalPlace =>
            let there? := w.files.find? goalPlace
            if isTrailing && there? != some .directory then failed .notADirectory
            else if node == .directory && there?.isSome && there? != some .directory then
              complainAs zero ("cannot overwrite non-directory ".toList ++ quoted goal
                ++ " with directory ".toList ++ quoted name)
              pure 1
            else if goalPlace == place then
              complainAs zero (quoted name ++ " and ".toList ++ quoted goal
                ++ " are the same file".toList)
              pure 1
            else
              let cleared : World := { w with files := without w goalPlace }
              let there := copied cleared.files place goalPlace
              set (s.withFiles (without { w with files := there } place))
              pure status
      names.foldlM one 0

/-- The bits of a mode that stand for a class of users, which is all of them if none is named. -/
def classBits : Char → Nat
  | 'u' => 0o700
  | 'g' => 0o070
  | 'o' => 0o007
  | _ => 0o777

/-- The bits that a letter stands for, for all users. Those of a class are its own. -/
def letterBits (mode : Nat) : Char → Nat
  | 'r' => 0o444
  | 'w' => 0o222
  | 'x' => 0o111
  | 'X' => if mode &&& 0o111 == 0 then 0 else 0o111
  | 'u' => mode / 64 % 8 * 0o111
  | 'g' => mode / 8 % 8 * 0o111
  | _ => mode % 8 * 0o111

/-- A mode changed by operators, each with letters behind it, within the bits of a scope. The fuel
bounds the number of operators. -/
def modeWithin (scope : Nat) : Nat → Nat → Chars → Option Nat
  | 0, _, _ => none
  | _ + 1, mode, [] => some mode
  | fuel + 1, mode, operator :: rest =>
    let letters := rest.takeWhile fun c => "rwxXugo".toList.contains c
    let bits := (letters.foldl (fun n c => n ||| letterBits mode c) 0) &&& scope
    let changed? : Option Nat :=
      match operator with
      | '+' => some (mode ||| bits)
      | '-' => some (mode - (mode &&& bits))
      | '=' => some (mode - (mode &&& scope) + bits)
      | _ => none
    changed?.bind fun changed => modeWithin scope fuel changed (rest.drop letters.length)

/-- The mode that a description gives, if it can be read. Where a description by letters does not
say whose bits it changes, those of a mask are left as they are. -/
def modeFrom (mask mode : Nat) (description : Chars) : Option Nat :=
  if !description.isEmpty && description.all (isDigitTo 8) then
    let n := ofDigits 8 description
    if n < 0o10000 then some n else none
  else
    let one (mode : Nat) (clause : Chars) : Option Nat :=
      let who := clause.takeWhile fun c => "ugoa".toList.contains c
      let scope := if who.isEmpty then 0o777 - (0o777 &&& mask)
        else who.foldl (fun n c => n ||| classBits c) 0
      let changes := clause.drop who.length
      if changes.isEmpty then none else modeWithin scope (changes.length + 1) mode changes
    (splitAt ',' description).foldlM one mode

def chmod (zero : Chars) (arguments : List Chars) : Task Nat := do
  let { mask, .. } ← get
  let isFlag (a : Chars) : Bool := ["-R", "-f", "-v", "-c", "--"].contains (String.ofList a)
  match arguments.dropWhile isFlag with
  | [] => refuse zero "missing operand".toList
  | ('-' :: c :: more) :: _ =>
    if c == '-' then refuse zero ("unrecognized option ".toList ++ quoted ('-' :: c :: more))
    else if !"rwxXstugoa=,+-01234567".toList.contains c then
      refuse zero ("invalid option -- ".toList ++ quoted [c])
    else changeModes mask (arguments.dropWhile isFlag)
  | arguments => changeModes mask arguments
where
  /-- Changes files by the description in front of their names. -/
  changeModes (mask : Nat) : List Chars → Task Nat
  | [] => refuse zero "missing operand".toList
  | [one] => refuse zero ("missing operand after ".toList ++ quoted one)
  | description :: names =>
    if (modeFrom mask 0 description).isNone then
      refuse zero ("invalid mode: ".toList ++ quoted description)
    else forEach zero names "cannot access " fun w name =>
      match w.files.locate w.here (Shell.pathOf name) with
      | .error failure => .error failure
      | .ok (_, .directory) | .ok (_, .device _) => .ok w.files
      | .ok (place, .file mode content) =>
        .ok (w.files.put place (.file ((modeFrom mask mode description).getD mode) content))

def listed (o : Options) (w : World) (directory : Chars) : List Chars :=
  sorted ((namesIn w directory).filter fun entry =>
    if o.has 'a' then true
    else if o.has 'A' then entry != ['.'] && entry != ['.', '.']
    else entry.head? != some '.')

/-- A name as it is listed; directories may be marked. -/
def labelled (o : Options) (w : World) (name path : Chars) : Chars :=
  let isMarked := o.has 'p' || o.has 'F'
  if isMarked && w.files.isDirectory w.here (Shell.pathOf path) then name ++ ['/']
  else
    match w.files.locate w.here (Shell.pathOf path) with
    | .ok (_, .file mode _) => if o.has 'F' && mode &&& 0o111 != 0 then name ++ ['*'] else name
    | _ => name

/-- The directories whose content is listed: some, and all below them if that is asked for. The fuel
bounds how deep they are. -/
def listedDirectories (o : Options) (w : World) : Nat → Chars → List Chars
  | 0, directory => [directory]
  | fuel + 1, directory =>
    if o.has 'R' then
      let inside := (listed o w directory).filter fun name =>
        name != ['.'] && name != ['.', '.']
          && w.files.isDirectory w.here (Shell.pathOf (directory ++ '/' :: name))
      directory :: inside.flatMap fun name =>
        listedDirectories o w fuel (directory ++ '/' :: name)
    else [directory]

def ls (zero : Chars) (arguments : List Chars) : Task Nat :=
  withOptions "1aAdFpR" "" zero arguments (fun o => do
    let { world := w, .. } ← get
    let names := if o.operands.isEmpty then [['.']] else sorted o.operands
    let isThere (name : Chars) : Bool := w.files.exists? w.here (Shell.pathOf name)
    let isOpened (name : Chars) : Bool :=
      w.files.isDirectory w.here (Shell.pathOf name) && !o.has 'd'
    let missing := o.operands.filter fun name => !isThere name
    missing.forM fun name => do
      let why := match w.files.locate w.here (Shell.pathOf name) with
        | .error failure => reason failure
        | .ok _ => []
      complainAs zero ("cannot access ".toList ++ quoted name ++ ": ".toList ++ why)
    let files := names.filter fun name => isThere name && !isOpened name
    printLines (files.map fun name => labelled o w name name)
    let titled := names.length > 1 || o.has 'R'
    let one (isFirst : Bool) (directory : Chars) : Task Bool := do
      if titled then
        print ((if isFirst then [] else ['\n']) ++ directory ++ ":\n".toList)
      printLines ((listed o w directory).map fun name =>
        labelled o w name (directory ++ '/' :: name))
      pure false
    let depth := w.files.entries.length
    let _ ← ((names.filter isOpened).flatMap (listedDirectories o w depth)).foldlM one files.isEmpty
    pure (if missing.isEmpty then 0 else 2)) 2

/-- Prints the last names of paths, without an ending. Without options there is one path, which may
be followed by the ending. -/
def basename (zero : Chars) (arguments : List Chars) : Task Nat :=
  let (options, operands) := optionsInFront arguments
  withOptions "az" "s" zero options fun o => do
    let stop := if o.has 'z' then [Char.ofNat 0] else ['\n']
    let one (ending path : Chars) : Task Unit := do
      let name := lastName path
      let isEnding := ending.isSuffixOf name && ending.length < name.length
      print ((if isEnding then name.take (name.length - ending.length) else name) ++ stop)
    match o.has 'a' || (o.value? 's').isSome, operands with
    | _, [] => refuse zero "missing operand".toList
    | true, paths =>
      paths.forM (one ((o.value? 's').getD []))
      pure 0
    | false, _ :: _ :: a :: _ => refuse zero ("extra operand ".toList ++ quoted a)
    | false, path :: more =>
      one (more.headD []) path
      pure 0
where
  /-- The options in front of the first argument that is none, and the other arguments. -/
  optionsInFront : List Chars → List Chars × List Chars
    | ['-', '-'] :: rest => ([], rest)
    | ['-', 's'] :: value :: rest =>
      let (options, operands) := optionsInFront rest
      (['-', 's'] :: value :: options, operands)
    | ('-' :: c :: more) :: rest =>
      let (options, operands) := optionsInFront rest
      (('-' :: c :: more) :: options, operands)
    | rest => ([], rest)

def frontOf (path : Chars) : Chars :=
  let dropSlashes (s : Chars) : Chars := s.dropWhile (· == '/')
  let front := dropSlashes ((dropSlashes path.reverse).dropWhile (· != '/'))
  if !front.isEmpty then front.reverse
  else if path.head? == some '/' then ['/'] else ['.']

def dirname (zero : Chars) (arguments : List Chars) : Task Nat :=
  withOptions "z" "" zero arguments fun o => do
    if o.operands.isEmpty then refuse zero "missing operand".toList
    else
      let stop := if o.has 'z' then [Char.ofNat 0] else ['\n']
      print (o.operands.flatMap fun path => frontOf path ++ stop)
      pure 0

def pwd (zero : Chars) (arguments : List Chars) : Task Nat :=
  withOptions "LP" "" zero arguments fun o => do
    if !o.operands.isEmpty then complainAs zero "ignoring non-option arguments".toList
    printLines [ofBytes (← get).world.directory.bytes]
    pure 0

/-- Prints the paths of files, seen from the root. -/
def realpath (zero : Chars) (arguments : List Chars) : Task Nat :=
  withOptions "emfqsz" "" zero arguments fun o => do
    let one (status : Nat) (name : Chars) : Task Nat := do
      let w := (← get).world
      match w.files.resolve w.here (Shell.pathOf name) with
      | .ok place =>
        printLines [ofBytes (FileTree.render place).bytes]
        pure status
      | .error failure =>
        complainAs zero (shown name ++ ": ".toList ++ reason failure)
        pure 1
    if o.operands.isEmpty then refuse zero "missing operand".toList
    else o.operands.foldlM one 0

end TargetQuery.Script.Utility
