import TargetQuery.Script.Edit.Grammar
import TargetQuery.Script.Utility.Basic

/-!
# Editing text

The program that carries out edits on the lines of files.
-/

namespace TargetQuery.Script.Utility

def editPatience : Nat := 1000000

/-- The lines of a content. The last one may lack its line end. -/
def linesToEdit (content : Bytes) : List (Chars × Bool) :=
  (linesOf content).map fun line =>
    (ofBytes (line.filter (· != Ascii.newline)), line.getLast? == some Ascii.newline)

/-- The state before the first line. Edits that apply from the line in front of it are active. -/
def editingOf (script : EditScript) (lines : List (Chars × Bool)) : Editing :=
  let early := (List.range script.size).filterMap fun i =>
    match script[i]? with
    | some ({ first? := some (.line 0), .. }, _) => some (i, none)
    | _ => none
  { left := lines, active := early }

def edited (w : World) (quiet : Bool) (script : EditScript) (lines : List (Chars × Bool)) :
    Editing :=
  let files (name : Chars) : Option Chars :=
    (w.files.read w.here (Shell.pathOf name)).toOption.map ofBytes
  let e := editingOf script lines
  match e.advanced? with
  | none => e
  | some e => Editing.carryOut files quiet script editPatience 0 e

/-- Writes what edits have written to files. Each file is there, even if nothing was written. -/
def writeEdits (zero : Chars) (script : EditScript) (e : Editing) : Task Unit := do
  let name? : Scope × Edit → Option Chars
    | (_, .writeFile name) | (_, .substitute { file? := some name, .. }) => some name
    | _ => none
  let names := (script.toList.filterMap name?).eraseDups.filter (· != "/dev/stdout".toList)
  names.forM fun name => do
    let add (done line : Chars) : Chars :=
      if done.isEmpty || done.getLast? == some '\n' then done ++ line else done ++ '\n' :: line
    let text := ((e.written.reverse.filter (·.1 == name)).map (·.2)).foldl add []
    let _ ← writeTo zero "couldn't open file " name .overwrite (toBytes text)

def editsOf (zero : Chars) (o : Options) : Task (Except Nat (Chars × List Chars)) := do
  let one (v : Char × Chars) : Task (Option Chars) := do
    if v.1 == 'e' then pure (some v.2)
    else match ← contentOf v.2 with
      | .ok content => pure (some (['\n'].intercalate (bareLines content)))
      | .error failure =>
        complainAs zero ("couldn't open file ".toList ++ v.2 ++ ": ".toList ++ reason failure)
        pure none
  match o.values.filter (·.1 != 'I'), o.operands with
  | [], [] =>
    complain ("Usage: ".toList ++ zero
      ++ " [OPTION]... \x7bscript-only-if-no-other-script\x7d [input-file]...\n".toList)
    pure (.error 1)
  | [], text :: names => pure (.ok (text, names))
  | values, names =>
    let parts ← values.mapM one
    pure (if parts.all Option.isSome then
      .ok (['\n'].intercalate (parts.filterMap id), names) else .error 4)

/-- The content of a file that is edited; or the status, if it cannot be read. -/
def contentToEdit (zero : Chars) (inPlace : Bool) (name : Chars) :
    Task (Except Nat (Chars × Bytes)) := do
  match ← contentOf name with
  | .ok content => pure (.ok (name, content))
  | .error .isADirectory =>
    let why := if inPlace then "couldn't edit ".toList ++ name ++ ": not a regular file".toList
      else "read error on ".toList ++ name ++ ": Is a directory".toList
    complainAs zero why
    pure (.error 4)
  | .error failure =>
    complainAs zero ("can't read ".toList ++ name ++ ": ".toList ++ reason failure)
    pure (.error 2)

/-- Puts the output of edits where it belongs, and gives the status. -/
def finishEdits (zero : Chars) (script : EditScript) (e : Editing) (out : Chars → Task Unit) :
    Task Nat := do
  out e.output.reverse.flatten
  writeEdits zero script e
  match e.failed? with
  | some why =>
    complainAs zero ("-e expression #1, char 0: ".toList ++ why.toList)
    pure 1
  | none => pure e.status

def editNames : List (String × Char) :=
  [("expression", 'e'), ("file", 'f'), ("in-place", 'i'), ("quiet", 'n'),
    ("regexp-extended", 'E'), ("separate", 's'), ("silent", 'n'), ("unbuffered", 'u')]

/-- Arguments in which what is joined to the option for editing in place is its value, which is
given to an option of its own. -/
def withSuffix (arguments : List Chars) : List Chars :=
  arguments.flatMap fun
    | '-' :: letters =>
      let front := letters.takeWhile "nErsu".toList.contains
      match letters.drop front.length with
      | 'i' :: c :: more => ['-' :: front ++ ['i'], ['-', 'I'], c :: more]
      | _ => ['-' :: letters]
    | a => [a]

/-- Edits the lines of files, and prints them or puts them into the place of the files. -/
def sed (zero : Chars) (arguments : List Chars) : Task Nat :=
  withOptions "nErsui" "efI" zero (withSuffix (shortened editNames arguments)) fun o => do
    match ← editsOf zero o with
    | .error status => pure status
    | .ok (text, names) =>
      match EditScript.ofChars (o.has 'E' || o.has 'r') text with
      | .error (why, status) =>
        complainAs zero why
        pure status
      | .ok script =>
        let quiet := o.has 'n' || text.take 3 == ['#', 'n', '\n'] || text == ['#', 'n']
        let files ← (if names.isEmpty then [['-']] else names).mapM
          (contentToEdit zero (o.has 'i'))
        let add (status : Nat) : Except Nat (Chars × Bytes) → Nat
          | .error n => max status n
          | .ok _ => status
        let status := files.foldl add 0
        let contents := files.filterMap Except.toOption
        let world := (← get).world
        if o.has 'i' || o.has 's' then
          let one (status : Nat) (file : Chars × Bytes) : Task Nat := do
            let (name, content) := file
            let replace (name : Chars) (text : Bytes) : Task Unit := do
              let _ ← writeTo zero "couldn't open file " name .overwrite text
            if o.has 'i' then
              if let some suffix := o.value? 'I' then replace (name ++ suffix) content
            let out (text : Chars) : Task Unit :=
              if o.has 'i' then replace name (toBytes text) else print text
            let e := edited world quiet script (linesToEdit content)
            pure (max status (← finishEdits zero script e out))
          contents.foldlM one status
        else
          let e := edited world quiet script (contents.flatMap fun c => linesToEdit c.2)
          pure (max status (← finishEdits zero script e print))

end TargetQuery.Script.Utility
