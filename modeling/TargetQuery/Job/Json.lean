import TargetQuery.Job.Basic
import TargetQuery.Json.Record
import TargetQuery.Json.Tagged
import TargetQuery.Json.Value
import TargetQuery.Triple

/-!
# Jobs as JSON

A job is written with all its fields, a location as a tagged path, an argument as a tagged text or
location. A path that is not UTF-8 cannot be written at all.
-/

namespace TargetQuery

open Json (Reader Value RecordField Record Tagged Content Buffered Mismatch WriteError)

/-! ### Reading -/

def Triple.read : Reader Triple := Triple.mk <$> Json.textValue "a string"

namespace Location

def pathContent (make : Path → Location) : Content Location :=
  .value (fun _ => do
      let s ← Json.textValue "path string"
      pure (make (Path.ofString s)))
    (fun b => do
      let s ← b.textOf "path string"
      pure (make (Path.ofString s)))

def tagged : Tagged Location where
  name := "VirtualPath"
  tagName := "kind"
  contentName := "path"
  cases :=
    [("absolute", pathContent .absolute),
     ("relative", pathContent .relative),
     ("temporary", pathContent .temporary),
     ("standard_input", .nothing "unit variant VirtualPath::StandardInput" .standardInput),
     ("standard_output", .nothing "unit variant VirtualPath::StandardOutput" .standardOutput)]

def read (room : Nat) : Reader Location := tagged.read room

end Location

namespace Argument

def locationContent (make : Location → Argument) : Content Argument :=
  .value (fun room => make <$> Location.read room)
    (fun b => do
      let l ← Location.tagged.ofBuffered b
      pure (make l))

def tagged : Tagged Argument where
  name := "ArgTemplate"
  tagName := "kind"
  contentName := "value"
  cases :=
    [("flag", .value (fun _ => .flag <$> Json.textValue "a string")
        (fun b => do
          let s ← b.textOf "a string"
          pure (.flag s))),
     ("path", locationContent .path),
     ("response_file_path", locationContent .responseFile)]

def read (room : Nat) : Reader Argument := tagged.read room

end Argument

def FileType.read (room : Nat) : Reader FileType :=
  Json.nameValue [(FileType.jsonTargetInfo.name, .jsonTargetInfo)] room

def JobKind.read (room : Nat) : Reader JobKind :=
  Json.nameValue [(JobKind.printTargetInfo.name, .printTargetInfo)] room

/-- A field that must be there: reads a value and stores it in the draft. -/
def required {σ α : Type} (name : String) (get : σ → Option α) (set : σ → α → σ)
    (value : Nat → Reader α) : RecordField σ where
  name
  optional := false
  filled draft := (get draft).isSome
  read room draft := set draft <$> value room

/-- The value of a field, or the name of the field if it is missing. -/
def need {α : Type} (name : String) : Option α → Except String α
  | some a => .ok a
  | none => .error name

namespace TypedLocation

/-- What has been read of a typed location. -/
structure Draft where
  file : Option Location := none
  fileType : Option FileType := none

def record : Record Draft TypedLocation where
  name := "TypedVirtualPath"
  fields :=
    [required "file" (·.file) (fun d v => { d with file := some v }) Location.read,
     required "file_type" (·.fileType) (fun d v => { d with fileType := some v }) FileType.read]
  empty := {}
  complete d := do
    let file ← need "file" d.file
    let fileType ← need "file_type" d.fileType
    pure { file, fileType }

def read (room : Nat) : Reader TypedLocation := record.read room

end TypedLocation

namespace Job

/-- What has been read of a job. -/
structure Draft where
  moduleName : Option String := none
  kind : Option JobKind := none
  tool : Option Location := none
  arguments : Option (List Argument) := none
  displayInputs : Option (List TypedLocation) := none
  inputs : Option (List TypedLocation) := none
  outputs : Option (List TypedLocation) := none
  inPlace : Option Bool := none
  responseFiles : Option Bool := none

def record : Record Draft Job where
  name := "Job"
  fields :=
    [required "module_name" (·.moduleName) (fun d v => { d with moduleName := some v })
        (fun _ => Json.textValue "a string"),
     required "kind" (·.kind) (fun d v => { d with kind := some v }) JobKind.read,
     required "tool" (·.tool) (fun d v => { d with tool := some v }) Location.read,
     required "command_line" (·.arguments) (fun d v => { d with arguments := some v })
        (Json.listValue Argument.read),
     required "display_inputs" (·.displayInputs) (fun d v => { d with displayInputs := some v })
        (Json.listValue TypedLocation.read),
     required "inputs" (·.inputs) (fun d v => { d with inputs := some v })
        (Json.listValue TypedLocation.read),
     required "outputs" (·.outputs) (fun d v => { d with outputs := some v })
        (Json.listValue TypedLocation.read),
     required "requires_in_place_execution" (·.inPlace) (fun d v => { d with inPlace := some v })
        (fun _ => Json.boolValue),
     required "supports_response_files" (·.responseFiles)
        (fun d v => { d with responseFiles := some v }) (fun _ => Json.boolValue)]
  empty := {}
  complete d := do
    let moduleName ← need "module_name" d.moduleName
    let kind ← need "kind" d.kind
    let tool ← need "tool" d.tool
    let arguments ← need "command_line" d.arguments
    let displayInputs ← need "display_inputs" d.displayInputs
    let inputs ← need "inputs" d.inputs
    let outputs ← need "outputs" d.outputs
    let inPlace ← need "requires_in_place_execution" d.inPlace
    let responseFiles ← need "supports_response_files" d.responseFiles
    pure
      { moduleName, kind, tool, arguments, displayInputs, inputs, outputs, inPlace
        responseFiles }

def read (room : Nat) : Reader Job := record.read room

def ofJson? (text : Bytes) : Except Json.LocatedError Job :=
  ((read Json.maxDepth).run text).mapError (·.locate text)

end Job

/-! ### Writing -/

def Triple.toJson (t : Triple) : Value := .text t.text

def FileType.toJson (f : FileType) : Value := .text f.name

def JobKind.toJson (k : JobKind) : Value := .text k.name

def Path.toJson? (p : Path) : Except WriteError Value :=
  match Utf8.decode? p.bytes with
  | some s => .ok (.text s)
  | none => .error .pathNotUnicode

namespace Location

def tag : Location → String
  | .absolute _ => "absolute"
  | .relative _ => "relative"
  | .temporary _ => "temporary"
  | .standardInput => "standard_input"
  | .standardOutput => "standard_output"

def toJson? (l : Location) : Except WriteError Value :=
  match l.path? with
  | some p => do
    let path ← p.toJson?
    pure (.object [("kind", .text l.tag), ("path", path)])
  | none => .ok (.object [("kind", .text l.tag)])

end Location

namespace Argument

def tag : Argument → String
  | .flag _ => "flag"
  | .path _ => "path"
  | .responseFile _ => "response_file_path"

def toJson? (a : Argument) : Except WriteError Value := do
  let value ← match a with
    | .flag text => pure (Value.text text)
    | .path l | .responseFile l => l.toJson?
  pure (.object [("kind", .text a.tag), ("value", value)])

end Argument

def TypedLocation.toJson? (t : TypedLocation) : Except WriteError Value := do
  let file ← t.file.toJson?
  pure (.object [("file", file), ("file_type", t.fileType.toJson)])

/-- The job with all its fields, if all its paths are text. -/
def Job.toJson? (j : Job) : Except WriteError Value := do
  let tool ← j.tool.toJson?
  let arguments ← j.arguments.mapM Argument.toJson?
  let displayInputs ← j.displayInputs.mapM TypedLocation.toJson?
  let inputs ← j.inputs.mapM TypedLocation.toJson?
  let outputs ← j.outputs.mapM TypedLocation.toJson?
  pure (.object
    [("module_name", .text j.moduleName),
     ("kind", j.kind.toJson),
     ("tool", tool),
     ("command_line", .list arguments),
     ("display_inputs", .list displayInputs),
     ("inputs", .list inputs),
     ("outputs", .list outputs),
     ("requires_in_place_execution", .bool j.inPlace),
     ("supports_response_files", .bool j.responseFiles)])

end TargetQuery
