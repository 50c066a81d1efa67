import TargetQuery.Script.Integer
import TargetQuery.Script.Shell

/-!
# Utilities

The small programs of the machine. A utility is given the name under which it was started and its
arguments; it reads and writes the streams of the program that started it, and ends with a status.
-/

namespace TargetQuery.Script

/-- A small program: its name, its arguments, and the status with which it ends. -/
abbrev Utility := Chars → List Chars → Task Nat

namespace Utility

def reason : SystemFailure → Chars
  | .notFound => "No such file or directory".toList
  | .permissionDenied => "Permission denied".toList
  | .alreadyExists => "File exists".toList
  | .notADirectory => "Not a directory".toList
  | .isADirectory => "Is a directory".toList
  | .nameTooLong => "File name too long".toList
  | .notAProgram => "Exec format error".toList
  | .argumentsTooLong => "Argument list too long".toList
  | .noSpace => "No space left on device".toList
  | .tooManyLevels => "Too many levels of symbolic links".toList
  | failure => failure.message.toList

def complainAs (zero text : Chars) : Task Unit :=
  complain (zero ++ ": ".toList ++ text ++ ['\n'])

/-- Says what is wrong with the arguments, and where to find help. -/
def refuse (zero text : Chars) (status : Nat := 1) : Task Nat := do
  complainAs zero text
  complain ("Try '".toList ++ zero ++ " --help' for more information.\n".toList)
  pure status

/-- The options of a utility that are letters, those of them that have a value, and the other
arguments. -/
structure Options where
  letters : Chars := []
  values : List (Char × Chars) := []
  operands : List Chars := []

def Options.value? (o : Options) (c : Char) : Option Chars :=
  (o.values.reverse.find? (·.1 == c)).map (·.2)

def Options.has (o : Options) (c : Char) : Bool := o.letters.contains c

/-- The letters of one argument, behind its dash. What is wrong with it is given as text. The last
part says whether an option wants the next argument as its value. -/
def lettersOf (flags valued : Chars) : Options → Chars → Except Chars (Options × Option Char)
  | o, [] => .ok (o, none)
  | o, c :: rest =>
    if flags.contains c then lettersOf flags valued { o with letters := o.letters ++ [c] } rest
    else if valued.contains c then
      if rest.isEmpty then .ok (o, some c)
      else .ok ({ o with values := o.values ++ [(c, rest)] }, none)
    else .error ("invalid option -- ".toList ++ quoted [c])

/-- Reads options, which may stand anywhere in front of a double dash. -/
def readOptions (flags valued : Chars) : Options → List Chars → Except Chars Options
  | o, [] => .ok o
  | o, ['-', '-'] :: rest => .ok { o with operands := o.operands ++ rest }
  | o, ('-' :: c :: more) :: rest =>
    if c == '-' then .error ("unrecognized option ".toList ++ quoted ('-' :: c :: more))
    else match lettersOf flags valued o (c :: more) with
      | .error why => .error why
      | .ok (o, none) => readOptions flags valued o rest
      | .ok (o, some c) =>
        match rest with
        | [] => .error ("option requires an argument -- ".toList ++ quoted [c])
        | value :: rest =>
          readOptions flags valued { o with values := o.values ++ [(c, value)] } rest
  | o, operand :: rest =>
    readOptions flags valued { o with operands := o.operands ++ [operand] } rest

/-- Arguments with letters in the place of options that are given by long names. A value may be
joined to such a name. -/
def shortened (names : List (String × Char)) : List Chars → List Chars
  | [] => []
  | ['-', '-'] :: rest => ['-', '-'] :: rest
  | a :: rest =>
    let name := a.takeWhile (· != '=')
    match names.find? fun n => ("--" ++ n.1).toList == name with
    | some (_, c) =>
      let value := a.drop (name.length + 1)
      let here := if name.length < a.length then [['-', c], value] else [['-', c]]
      here ++ shortened names rest
    | none => a :: shortened names rest

/-- Runs a utility on its options, unless they are wrong. -/
def withOptions (flags valued : String) (zero : Chars) (arguments : List Chars)
    (act : Options → Task Nat) (status : Nat := 1) : Task Nat :=
  match readOptions flags.toList valued.toList {} arguments with
  | .ok o => act o
  | .error why => refuse zero why status

/-- The content of a file, or of the input for a dash. -/
def contentOf (name : Chars) : Task (Except SystemFailure Bytes) :=
  if name == ['-'] then takeInput 0 else readFile name

/-- Does something with the content of each file, or with the input if there is no file. Files that
cannot be read are complained about. -/
def forFiles (zero : Chars) (names : List Chars) (front : Chars)
    (act : Chars → Bytes → Task Unit) : Task Nat := do
  let one (failed : Bool) (name : Chars) : Task Bool := do
    match ← contentOf name with
    | .ok content =>
      act name content
      pure failed
    | .error failure =>
      let name := match failure, front with
        | .isADirectory, _ | _, [] => shown name
        | _, front => front ++ quoted name ++ " for reading".toList
      complainAs zero (name ++ ": ".toList ++ reason failure)
      pure true
  let failed ← (if names.isEmpty then [['-']] else names).foldlM one false
  pure (if failed then 1 else 0)

def gather (zero : Chars) (names : List Chars) : Task (Bytes × Nat) := do
  let place := (← get).streams.size
  modify fun s => (s.opened (.sink [])).2
  let status ← forFiles zero names [] fun _ content =>
    modify fun s =>
      match s.streams[place]? with
      | some (.sink parts) =>
        { s with streams := s.streams.setIfInBounds place (.sink (content :: parts)) }
      | _ => s
  pure ((← get).collected place, status)

/-- Writes to a file, and gives the status of that. A complaint begins with what is given. -/
def writeTo (zero : Chars) (what : String) (name : Chars) (opening : Opening) (text : Bytes) :
    Task Nat := do
  match ← openFile name opening with
  | .ok i =>
    -- The number is one that no program uses otherwise.
    modify fun s => s.direct 1000 (some i)
    let _ ← put 1000 text
    modify fun s => s.direct 1000 none
    pure 0
  | .error failure =>
    complainAs zero (what.toList ++ shown name ++ ": ".toList ++ reason failure)
    pure 1

def bareLines (s : Bytes) : List Chars :=
  (linesOf s).map fun line => ofBytes (line.filter (· != Ascii.newline))

def printLines (lines : List Chars) : Task Unit := print (lines.flatMap (· ++ ['\n']))

def padded (width : Nat) (s : Chars) : Chars := List.replicate (width - s.length) ' ' ++ s

end Utility

end TargetQuery.Script
