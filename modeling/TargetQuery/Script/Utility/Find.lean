import TargetQuery.Script.Field
import TargetQuery.Script.Pattern
import TargetQuery.Script.Utility.File

/-!
# Finding files

Programs that go through directories and tell what is there, and what is known of a file.
-/

namespace TargetQuery.Script.Utility

/-- What is asked of a file that is found, and what is done with it. -/
inductive Finding where
  | always (result : Bool)
  | named (pattern : List Atom)
  | atPath (pattern : List Atom)
  | ofKind (kind : Char)
  | empty
  | not (f : Finding)
  /-- The second part is looked at only if the first one does not settle it. -/
  | both (a b : Finding)
  | either (a b : Finding)
  | print (stop : Char)

namespace Finding

def acts : Finding → Bool
  | .print _ => true
  | .not f => f.acts
  | .both a b | .either a b => a.acts || b.acts
  | _ => false

def answer (w : World) (path : Chars) : Finding → Bool × Chars
  | .always result => (result, [])
  | .named pattern => (accepts pattern (lastName path), [])
  | .atPath pattern => (accepts pattern path, [])
  | .ofKind kind =>
    let here := Shell.pathOf path
    (match kind with
      | 'f' => w.files.isFile w.here here
      | 'd' => w.files.isDirectory w.here here
      | _ => false, [])
  | .empty =>
    (match w.files.locate w.here (Shell.pathOf path) with
      | .ok (_, .file _ content) => content.isEmpty
      | .ok (place, .directory) => (w.files.below place).isEmpty
      | _ => false, [])
  | .not f =>
    let (a, text) := f.answer w path
    (!a, text)
  | .both a b =>
    match a.answer w path with
    | (false, text) => (false, text)
    | (true, text) =>
      let (r, more) := b.answer w path
      (r, text ++ more)
  | .either a b =>
    match a.answer w path with
    | (true, text) => (true, text)
    | (false, text) =>
      let (r, more) := b.answer w path
      (r, text ++ more)
  | .print stop => (true, path ++ [stop])

end Finding

/-- Reads what is asked from arguments; so deep at least and at most are the files that are
found. -/
abbrev FindingReader := StateT (List Chars × Nat × Option Nat) (Except Chars)

namespace FindingReader

/-- Passes an argument and gives the next one, which belongs to it. -/
def value (name : Chars) : FindingReader Chars := do
  match ← get with
  | (_ :: a :: rest, depths) =>
    set (rest, depths)
    pure a
  | _ => throw ("missing argument to `".toList ++ name ++ ['\''])

def pattern (name : Chars) : FindingReader (List Atom) := do
  pure (atoms ((← value name).map (·, false)))

def number (name : Chars) : FindingReader Nat := do
  let a ← value name
  match natural? a with
  | some n => pure n
  | none =>
    throw ("Expected a positive decimal integer argument to ".toList ++ name ++ ", but got ".toList
      ++ quoted a)

mutual

/-- Questions of which one has to be answered with yes. -/
def choices : Nat → FindingReader Finding
  | 0 => pure (.always true)
  | fuel + 1 => do
    let a ← sequence fuel
    match ← get with
    | (name :: rest, depths) =>
      if name == "-o".toList || name == "-or".toList then
        set (rest, depths)
        return .either a (← choices fuel)
      else pure a
    | _ => pure a

/-- Questions that have to be answered with yes, all of them. -/
def sequence : Nat → FindingReader Finding
  | 0 => pure (.always true)
  | fuel + 1 => do
    let a ← question fuel
    match ← get with
    | ([], _) => pure a
    | (name :: rest, depths) =>
      match String.ofList name with
      | "-o" | "-or" | ")" => pure a
      | "-a" | "-and" =>
        set (rest, depths)
        return .both a (← sequence fuel)
      | _ => return .both a (← sequence fuel)

def question : Nat → FindingReader Finding
  | 0 => pure (.always true)
  | fuel + 1 => do
    match ← get with
    | ([], _) => throw "expected an expression".toList
    | (name :: rest, depths) =>
      let done (f : Finding) : FindingReader Finding := do
        set (rest, depths)
        pure f
      match String.ofList name with
      | "(" =>
        set (rest, depths)
        let f ← choices fuel
        match ← get with
        | ([')'] :: rest, depths) =>
          set (rest, depths)
          pure f
        | _ =>
          let why := "invalid expression; I was expecting to find a ')' somewhere but did not see "
          throw (why ++ "one.").toList
      | "!" | "-not" =>
        set (rest, depths)
        return .not (← question fuel)
      | "-name" => return .named (← pattern name)
      | "-path" => return .atPath (← pattern name)
      | "-type" =>
        let kind ← value name
        return .ofKind (kind.headD ' ')
      | "-empty" => done .empty
      | "-true" => done (.always true)
      | "-false" => done (.always false)
      | "-print" => done (.print '\n')
      | "-print0" => done (.print (Char.ofNat 0))
      | "-maxdepth" =>
        let n ← number name
        modify fun (rest, least, _) => (rest, least, some n)
        pure (.always true)
      | "-mindepth" =>
        let n ← number name
        modify fun (rest, _, most?) => (rest, n, most?)
        pure (.always true)
      | _ => throw ("unknown predicate `".toList ++ name ++ ['\''])

end

end FindingReader

/-- A path and all below it, with how deep they are. The fuel bounds that. -/
def allBelow (w : World) : Nat → Nat → Chars → List (Nat × Chars)
  | 0, depth, path => [(depth, path)]
  | fuel + 1, depth, path =>
    let inside :=
      if w.files.isDirectory w.here (Shell.pathOf path) then
        (sorted (namesIn w path)).filter fun name => name != ['.'] && name != ['.', '.']
      else []
    let front := if path.getLast? == some '/' then path else path ++ ['/']
    (depth, path) :: inside.flatMap fun name => allBelow w fuel (depth + 1) (front ++ name)

/-- Prints the paths of files for which questions are answered with yes. -/
def find (zero : Chars) (arguments : List Chars) : Task Nat := do
  let isPath (a : Chars) : Bool :=
    !(a.length > 1 && a.head? == some '-') && a != ['!'] && a != ['('] && a != [')']
  let paths := arguments.takeWhile isPath
  let rest := arguments.drop paths.length
  let read : Except Chars (Finding × List Chars × Nat × Option Nat) :=
    if rest.isEmpty then .ok (.print '\n', [], 0, none)
    else (FindingReader.choices (4 * rest.length + 4)).run (rest, 0, none)
  match read with
  | .error why =>
    complainAs zero why
    pure 1
  | .ok (_, a :: _, _, _) =>
    complainAs zero ("paths must precede expression: `".toList ++ a ++ ['\''])
    pure 1
  | .ok (asked, [], least, most?) =>
    let asked := if asked.acts then asked else .both asked (.print '\n')
    let { world := w, .. } ← get
    let one (status : Nat) (path : Chars) : Task Nat := do
      match w.files.locate w.here (Shell.pathOf path) with
      | .error failure =>
        complainAs zero (quoted path ++ ": ".toList ++ reason failure)
        pure 1
      | .ok _ =>
        let found := (allBelow w (w.files.entries.length + 1) 0 path).filter fun f =>
          least ≤ f.1 && most?.all (f.1 ≤ ·)
        print (found.flatMap fun f => (asked.answer w f.2).2)
        pure status
    (if paths.isEmpty then [['.']] else paths).foldlM one 0

/-- What a form asks to be said of a file. The fuel bounds its length. -/
def descriptionOf (name : Chars) (node : Node) : Nat → Chars → Chars
  | 0, _ => []
  | fuel + 1, '%' :: c :: rest =>
    let (mode, size, kind) : Nat × Nat × String := match node with
      | .file mode content =>
        (mode, content.length, if content.isEmpty then "regular empty file" else "regular file")
      | .directory => (0o755, 4096, "directory")
      | .device _ => (0o666, 0, "character special file")
    let text := match c with
      | 'a' => Nat.toDigits 8 mode
      | 's' => ofNat size
      | 'n' => name
      | 'N' => quoted name
      | 'F' => kind.toList
      | 'U' | 'G' => "root".toList
      | 'u' | 'g' => ['0']
      | '%' => ['%']
      | c => ['?', c].take 1
    text ++ descriptionOf name node fuel rest
  | fuel + 1, c :: rest => c :: descriptionOf name node fuel rest
  | _ + 1, [] => []

def stat (zero : Chars) (arguments : List Chars) : Task Nat :=
  withOptions "L" "c" zero (shortened [("format", 'c')] arguments) fun o => do
    let form := (o.value? 'c').getD ['%', 'n']
    let one (status : Nat) (name : Chars) : Task Nat := do
      let { world := w, .. } ← get
      match w.files.locate w.here (Shell.pathOf name) with
      | .ok (_, node) =>
        printLines [descriptionOf name node (form.length + 1) form]
        pure status
      | .error failure =>
        complainAs zero ("cannot statx ".toList ++ quoted name ++ ": ".toList ++ reason failure)
        pure 1
    if o.operands.isEmpty then refuse zero "missing operand".toList
    else o.operands.foldlM one 0

/-- Prints where links lead; a path that is no link leads nowhere, unless all of it is to be shown
from the root. -/
def readlink (zero : Chars) (arguments : List Chars) : Task Nat :=
  withOptions "emfnqsvz" "" zero arguments fun o => do
    let isWhole := o.has 'f' || o.has 'e' || o.has 'm'
    let one (status : Nat) (name : Chars) : Task Nat := do
      let { world := w, .. } ← get
      match w.files.resolve w.here (Shell.pathOf name) with
      | .ok place =>
        if isWhole && (!o.has 'e' || w.files.exists? w.here (Shell.pathOf name)) then
          print (ofBytes (FileTree.render place).bytes ++ if o.has 'n' then [] else ['\n'])
          pure status
        else pure 1
      | .error _ => pure 1
    if o.operands.isEmpty then refuse zero "missing operand".toList
    else o.operands.foldlM one 0

/-- Prints the paths at which programs are found. -/
def which (zero : Chars) (arguments : List Chars) : Task Nat :=
  withOptions "as" "" zero arguments fun o => do
    let { world := w, .. } ← get
    let found (name : Chars) : List Path :=
      let directories := Bytes.cut Ascii.colon ((w.environmentValue? "PATH").getD [])
      let all := if name.contains '/' then [Shell.pathOf name]
        else directories.map fun d => (Path.mk d).join (Shell.pathOf name)
      (all.filter (w.files.isExecutable w.here)).take (if o.has 'a' then all.length else 1)
    if !o.has 's' then printLines ((o.operands.flatMap found).map fun p => ofBytes p.bytes)
    pure (if o.operands.isEmpty || o.operands.any fun name => (found name).isEmpty then 1 else 0)

/-- The name of a new file: letters in the place of those at the end of a form. So many names have
been tried. -/
def freshName (form : Chars) (tries : Nat) : Chars :=
  let count := (form.reverse.takeWhile (· == 'X')).length
  let letter (i : Nat) : Char := Char.ofNat ('a'.toNat + tries / Nat.pow 26 i % 26)
  form.take (form.length - count) ++ (List.range count).map letter

/-- Makes a file or directory of a new name, and prints the name. -/
def mktemp (zero : Chars) (arguments : List Chars) : Task Nat :=
  withOptions "dqtu" "p" zero arguments fun o => do
    let { world := w, .. } ← get
    let directory := (o.value? 'p').getD
      (((w.environmentValue? "TMPDIR").map ofBytes).filter (!·.isEmpty) |>.getD "/tmp".toList)
    let isOwn := o.operands.isEmpty
    let form := o.operands.headD "tmp.XXXXXXXXXX".toList
    if (form.reverse.takeWhile (· == 'X')).length < 3 then
      complainAs zero ("too few X's in template ".toList ++ quoted form)
      pure 1
    else
      let form := if isOwn || o.has 't' || (o.value? 'p').isSome then directory ++ '/' :: form
        else form
      let isFree (i : Nat) : Bool := !w.files.exists? w.here (Shell.pathOf (freshName form i))
      let tries := ((List.range (w.files.entries.length + 1)).find? isFree).getD 0
      let name := freshName form tries
      let made := if o.has 'd' then w.files.makeDirectory w.here (Shell.pathOf name)
        else w.files.write w.here (Shell.pathOf name) 0o600 []
      match made with
      | .ok files =>
        if !o.has 'u' then modify fun s => s.withFiles files
        printLines [name]
        pure 0
      | .error failure =>
        let kind := if o.has 'd' then "directory" else "file"
        complainAs zero (("failed to create " ++ kind ++ " via template ").toList ++ quoted form
          ++ ": ".toList ++ reason failure)
        pure 1

end TargetQuery.Script.Utility
