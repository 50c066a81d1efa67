import TargetQuery.Machine.World

/-!
# Response files

An argument list that is too long for a command line is written to a file, an argument a line, and
the tool is given the name of the file instead. Arguments that the tool could misread are quoted.
The reader that a tool uses stands beside the writer: it takes any argument list back out of its
file.
-/

namespace TargetQuery.ResponseFile

/-- The size above which an argument list goes into a file, in bytes. -/
def defaultLimit : Nat := 32768

/-- The size of an argument list: its bytes, and one more for each argument. -/
def size (arguments : List Bytes) : Nat := sumOf (arguments.map fun a => a.length + 1)

/-- Whether an argument list is too long to be passed directly. -/
def isNeeded (arguments : List Bytes) (limit : Nat) : Bool := limit < size arguments

/-- Bytes with a meaning of their own in a response file. -/
def isSpecial (b : UInt8) : Bool :=
  Ascii.isBlank b || b == Ascii.doubleQuote || b == Ascii.apostrophe || b == Ascii.backslash

def escape (b : UInt8) : Bytes :=
  if b == Ascii.doubleQuote || b == Ascii.backslash then [Ascii.backslash, b] else [b]

def quote (argument : Bytes) : Bytes :=
  if argument.isEmpty || argument.any isSpecial then
    Ascii.doubleQuote :: argument.flatMap escape ++ [Ascii.doubleQuote]
  else argument

def contents (arguments : List Bytes) : Bytes :=
  arguments.flatMap fun a => quote a ++ [Ascii.newline]

/-- Reads on, with the argument that has been begun, if any, and the quote that is open, if any. -/
def readFrom (begun : Option Bytes) (opened : Option UInt8) : Bytes → List Bytes
  | [] => begun.toList
  | b :: rest =>
    let soFar := begun.getD []
    if b == Ascii.backslash then
      match rest with
      | [] => [soFar]
      | c :: rest => readFrom (some (soFar ++ [c])) opened rest
    else match opened with
      | some mark =>
        if b == mark then readFrom (some soFar) none rest
        else readFrom (some (soFar ++ [b])) opened rest
      | none =>
        if Ascii.isBlank b then begun.toList ++ readFrom none none rest
        else if b == Ascii.doubleQuote || b == Ascii.apostrophe then
          readFrom (some soFar) (some b) rest
        else readFrom (some (soFar ++ [b])) none rest

/-- The arguments in a file: stretches between blanks, where quotes of either kind keep blanks
together and a backslash takes the next byte as it is. -/
def read (content : Bytes) : List Bytes := readFrom none none content

/-- The name of the file with a number, which has six digits. -/
def fileName (n : Nat) : String :=
  let digits := toString n
  "arguments-" ++ "".pushn '0' (6 - digits.length) ++ digits ++ ".resp"

/-- The first path in a directory that nothing stands at. -/
def freshPath (w : World) (directory : Path) : Path :=
  let path (n : Nat) : Path := directory.join (Path.ofString (fileName n))
  let numbers := List.range (w.files.entries.length + 1)
  path ((numbers.find? fun n => !w.files.exists? w.here (path n)).getD 0)

/-- Writes the arguments to a new file in a directory, which only its owner may read. -/
def write (arguments : List Bytes) (directory : Path) : Action (Except SystemFailure Path) := do
  let w ← get
  let path := freshPath w (w.directory.join directory)
  match w.files.write w.here path 0o600 (contents arguments) with
  | .ok files =>
    set { w with files }
    pure (.ok path)
  | .error failure => pure (.error failure)

def discard (path : Path) : Action Unit :=
  modify fun w =>
    match w.files.resolve w.here path with
    | .ok place => { w with files := w.files.erase place }
    | .error _ => w

end TargetQuery.ResponseFile
