import TargetQuery.Location

/-!
# Jobs

A job describes one run of a tool: which executable, with which arguments in which order, what it
reads and what it produces. It is a plain value; running it is somebody else's concern.
-/

namespace TargetQuery

/-- One token of a command line. Files are told apart from literal text without looking at the text.
-/
inductive Argument where
  /-- Text that stands for itself. -/
  | flag (text : String)
  /-- A file, directory or stream. -/
  | path (location : Location)
  /-- A file that holds further arguments, written behind an at sign. -/
  | responseFile (location : Location)
deriving BEq

namespace Argument

/-- The at sign. -/
def atSign : UInt8 := 0x40

def render : Argument → Bytes
  | .flag text => Utf8.encode text
  | .path l => l.render
  | .responseFile l => atSign :: l.render

/-- The token as text for people. -/
def display (a : Argument) : String := Utf8.lossy a.render

end Argument

inductive FileType where
  /-- The description of a target as JSON. -/
  | jsonTargetInfo
deriving DecidableEq, Repr

def FileType.name : FileType → String
  | .jsonTargetInfo => "json-target-info"

inductive JobKind where
  /-- Ask the frontend to describe a target. -/
  | printTargetInfo
deriving DecidableEq, Repr

def JobKind.name : JobKind → String
  | .printTargetInfo => "print-target-info"

structure TypedLocation where
  file : Location
  fileType : FileType
deriving BEq

/-- The description of one run of a tool. -/
structure Job where
  /-- A label for messages, which may be empty. -/
  moduleName : String := ""
  kind : JobKind
  tool : Location
  arguments : List Argument := []
  /-- The inputs that are shown to people. -/
  displayInputs : List TypedLocation := []
  inputs : List TypedLocation := []
  outputs : List TypedLocation := []
  /-- The tool must replace the running process. -/
  inPlace : Bool := false
  /-- Long argument lists may be passed in a file. -/
  responseFiles : Bool := false
deriving BEq

namespace Job

def argv (j : Job) : List Bytes := j.arguments.map Argument.render

/-- The command as text for people: the tool and its arguments with a space between them. -/
def displayCommand (j : Job) : String :=
  " ".intercalate (j.tool.display :: j.arguments.map Argument.display)

inductive Step where
  | moduleName (name : String)
  | argument (a : Argument)
  | arguments (as : List Argument)
  | displayInput (f : TypedLocation)
  | input (f : TypedLocation)
  | output (f : TypedLocation)
  | inPlace (b : Bool)
  | responseFiles (b : Bool)

/-- Takes one step. Arguments and files are added behind those that are there; all else is replaced.
-/
def apply (j : Job) : Step → Job
  | .moduleName name => { j with moduleName := name }
  | .argument a => { j with arguments := j.arguments ++ [a] }
  | .arguments as => { j with arguments := j.arguments ++ as }
  | .displayInput f => { j with displayInputs := j.displayInputs ++ [f] }
  | .input f => { j with inputs := j.inputs ++ [f] }
  | .output f => { j with outputs := j.outputs ++ [f] }
  | .inPlace b => { j with inPlace := b }
  | .responseFiles b => { j with responseFiles := b }

def build (kind : JobKind) (tool : Location) (steps : List Step) : Job :=
  steps.foldl apply { kind, tool }

end Job

end TargetQuery
