import TargetQuery.Script.Utility.Table

/-!
# Images

What the system makes of a file that is to be run. A text file names the program that runs it in its
first line; that program may be such a file again, but only so often. In the end there is a program
of the machine, with arguments.
-/

namespace TargetQuery.Script

/-- A program of the machine that is about to run. -/
structure Image where
  name : String
  /-- The name under which it is started. -/
  zero : Bytes
  arguments : List Bytes

namespace Image

/-- How text files begin that name the program which runs them. -/
def interpreterMark : Bytes := [0x23, 0x21]

/-- How much of a file is looked at for the name of a program. -/
def headSize : Nat := 256

def isBlankByte (b : UInt8) : Bool := b == Ascii.space || b == Ascii.tab

/-- The program that a text file names, and its argument, if there is one. A line that is too long
must at least show where the name ends. -/
def interpreter? (content : Bytes) : Option (Path × List Bytes) :=
  let head := content.take headSize
  let head := head ++ List.replicate (headSize - head.length) Ascii.nul
  if interpreterMark.isPrefixOf head then
    let body := head.drop 2
    let ends (b : UInt8) : Bool := isBlankByte b || b == Ascii.nul
    let line? : Option Bytes :=
      if body.contains Ascii.newline then some (body.takeWhile (· != Ascii.newline))
      else if (body.dropWhile isBlankByte).any ends then some body.dropLast
      else none
    line?.bind fun line =>
      let line := (line.reverse.dropWhile isBlankByte).reverse.dropWhile isBlankByte
      let name := line.takeWhile fun b => !ends b
      let rest := line.drop name.length
      let argument := (rest.dropWhile isBlankByte).takeWhile (· != Ascii.nul)
      if line.isEmpty then none
      else if rest.head? == some Ascii.nul || argument.isEmpty then some (⟨name⟩, [])
      else some (⟨name⟩, [argument])
  else none

/-- A file that may be run: its content, or why it cannot be started. -/
def startable (w : World) (p : Path) : Except SystemFailure Bytes := do
  match ← w.files.locate w.here p with
  | (_, .directory) | (_, .device _) => .error .permissionDenied
  | (_, .file mode content) =>
    if FileTree.modeRuns mode then .ok content else .error .permissionDenied

/-- What is run for a file. The number of text files that may name each other is given. -/
def ofFile (w : World) : Nat → Path → Bytes → List Bytes → Except SystemFailure Image
  | depth, p, zero, arguments => do
    let content ← startable w p
    match programOf? content with
    | some name => .ok { name, zero, arguments }
    | none =>
      match interpreter? content with
      | none => .error .notAProgram
      | some (program, argument) =>
        match depth with
        | 0 =>
          let _ ← startable w program
          .error .tooManyLevels
        | depth + 1 =>
          -- An empty name leads to a directory.
          if program.bytes.isEmpty then .error .permissionDenied
          else ofFile w depth program program.bytes (argument ++ p.bytes :: arguments)

def maxDepth : Nat := 5

/-- The size of the longest argument, with the byte that ends it. -/
def longestArgument : Nat := 131072

def argumentRoom : Nat := 2097152

/-- Whether arguments and environment are more than a program can be given. -/
def isTooLong (w : World) (arguments : List Bytes) : Bool :=
  let bindings := w.environment.map fun v => ascii v.1 ++ 0x3D :: v.2
  let sizes := (arguments ++ bindings).map fun s => s.length + 1
  sizes.any (longestArgument < ·) || argumentRoom < sumOf (sizes.map (· + 8))

/-- Whether the shell runs files that name no program. -/
inductive Fallback where
  | never
  | always
  /-- Unless the first line shows that a file is no text. -/
  | texts
deriving DecidableEq

/-- How much of a file is looked at to see whether it is a text. -/
def sampleSize : Nat := 128

def isBinaryByte (b : UInt8) : Bool :=
  b < 9 || (15 < b && b < 32 && b != Ascii.escape) || b == Ascii.delete

/-- Whether the first line of a content shows that it is no text. -/
def showsBinary (content : Bytes) : Bool :=
  ((content.take sampleSize).takeWhile (· != Ascii.newline)).any isBinaryByte

/-- Whether the shell runs a content that names no program. -/
def Fallback.accepts (fallback : Fallback) (content : Bytes) : Bool :=
  match fallback with
  | .never => false
  | .always => true
  | .texts => !showsBinary content

/-- The shell that runs text files which name no program. -/
def plainShell : Path := Path.ofString "/bin/sh"

/-- What is run for a file that is named by a path. A text file that names no program may be run by
the shell. -/
def atPath (w : World) (fallback : Fallback) (p : Path) (zero : Bytes) (arguments : List Bytes) :
    Except SystemFailure Image := do
  let content ← startable w p
  if isTooLong w (zero :: arguments) then .error .argumentsTooLong
  else match ofFile w maxDepth p zero arguments with
    | .error .notAProgram =>
      if fallback.accepts content then
        ofFile w maxDepth plainShell plainShell.bytes (p.bytes :: arguments)
      else .error .notAProgram
    | result => result

/-- The directories that are searched for programs, also if the environment names none. -/
def searchPath (w : World) : Bytes :=
  (w.environmentValue? "PATH").getD (ascii "/bin:/usr/bin")

def candidates (searchPath : Bytes) (name : Bytes) : List Path :=
  (Bytes.cut Ascii.colon searchPath).map fun d => (Path.mk d).join ⟨name⟩

/-- The first of some files that can be run. Files that are not there are passed over, and so are
those that may not be run, which is remembered; any other failure is final. -/
def firstOf (w : World) (fallback : Fallback) (zero : Bytes) (arguments : List Bytes) :
    Bool → List Path → Except SystemFailure Image
  | denied, [] => .error (if denied then .permissionDenied else .notFound)
  | denied, p :: more =>
    match atPath w fallback p zero arguments with
    | .error .permissionDenied => firstOf w fallback zero arguments true more
    | .error .notFound | .error .notADirectory => firstOf w fallback zero arguments denied more
    | result => result

/-- What is run for a program that is named by a path, or looked for in a search path. -/
def ofName (w : World) (searchPath : Bytes) (fallback : Fallback) (name : Bytes)
    (arguments : List Bytes) : Except SystemFailure Image :=
  if name.isEmpty then .error .notFound
  else if name.contains Ascii.slash then atPath w fallback ⟨name⟩ name arguments
  else if FileTree.longestName < name.length then .error .nameTooLong
  else firstOf w fallback name arguments false (candidates searchPath name)

def whereIs? (w : World) (searchPath : Bytes) (name : Bytes) : Option Path :=
  (candidates searchPath name).find? (w.files.isExecutable w.here)

end Image

end TargetQuery.Script
