import TargetQuery.Job.Json
import TargetQuery.TargetInfo.Basic

/-!
# Target information as JSON

The text that a frontend prints, read and written. Members that are not modelled are ignored; the
variant and the paths may be absent or null; everything else must be there. Written text leaves
absent parts out.
-/

namespace TargetQuery

open Json (Reader Value RecordField Record LocatedError)

/-- A field that may be left out or be null. -/
def optionalField {σ α : Type} (name : String) (get : σ → Option (Option α))
    (set : σ → Option α → σ) (value : Nat → Reader α) : RecordField σ where
  name
  optional := true
  filled draft := (get draft).isSome
  read room draft := set draft <$> Json.nullable (value room)

namespace Target

/-- What has been read of a target. -/
structure Draft where
  triple : Option Triple := none
  unversionedTriple : Option Triple := none
  moduleTriple : Option Triple := none
  librariesRequireRPath : Option Bool := none

def record : Record Draft Target where
  name := "Target"
  fields :=
    [required "triple" (·.triple) (fun d v => { d with triple := some v }) (fun _ => Triple.read),
     required "unversionedTriple" (·.unversionedTriple)
        (fun d v => { d with unversionedTriple := some v }) (fun _ => Triple.read),
     required "moduleTriple" (·.moduleTriple) (fun d v => { d with moduleTriple := some v })
        (fun _ => Triple.read),
     required "librariesRequireRPath" (·.librariesRequireRPath)
        (fun d v => { d with librariesRequireRPath := some v }) (fun _ => Json.boolValue)]
  empty := {}
  complete d := do
    let triple ← need "triple" d.triple
    let unversionedTriple ← need "unversionedTriple" d.unversionedTriple
    let moduleTriple ← need "moduleTriple" d.moduleTriple
    let librariesRequireRPath ← need "librariesRequireRPath" d.librariesRequireRPath
    pure { triple, unversionedTriple, moduleTriple, librariesRequireRPath }

def toJson (t : Target) : Value :=
  .object
    [("triple", t.triple.toJson),
     ("unversionedTriple", t.unversionedTriple.toJson),
     ("moduleTriple", t.moduleTriple.toJson),
     ("librariesRequireRPath", .bool t.librariesRequireRPath)]

end Target

namespace RuntimePaths

/-- What has been read of the paths. -/
structure Draft where
  libraries : Option (List String) := none
  imports : Option (List String) := none
  resource : Option String := none

def textList : Nat → Reader (List String) := Json.listValue fun _ => Json.textValue "a string"

def record : Record Draft RuntimePaths where
  name := "Paths"
  fields :=
    [required "runtimeLibraryPaths" (·.libraries) (fun d v => { d with libraries := some v })
        textList,
     required "runtimeLibraryImportPaths" (·.imports) (fun d v => { d with imports := some v })
        textList,
     required "runtimeResourcePath" (·.resource) (fun d v => { d with resource := some v })
        (fun _ => Json.textValue "a string")]
  empty := {}
  complete d := do
    let libraries ← need "runtimeLibraryPaths" d.libraries
    let imports ← need "runtimeLibraryImportPaths" d.imports
    let resource ← need "runtimeResourcePath" d.resource
    pure { libraries, imports, resource }

def toJson (p : RuntimePaths) : Value :=
  .object
    [("runtimeLibraryPaths", .list (p.libraries.map .text)),
     ("runtimeLibraryImportPaths", .list (p.imports.map .text)),
     ("runtimeResourcePath", .text p.resource)]

end RuntimePaths

namespace TargetInfo

/-- What has been read of the answer. -/
structure Draft where
  target : Option Target := none
  variant : Option (Option Target) := none
  paths : Option (Option RuntimePaths) := none

def record : Record Draft TargetInfo where
  name := "FrontendTargetInfo"
  fields :=
    [required "target" (·.target) (fun d v => { d with target := some v }) Target.record.read,
     optionalField "targetVariant" (·.variant) (fun d v => { d with variant := some v })
        Target.record.read,
     optionalField "paths" (·.paths) (fun d v => { d with paths := some v })
        RuntimePaths.record.read]
  empty := {}
  complete d := do
    let target ← need "target" d.target
    pure { target, variant := d.variant.join, paths := d.paths.join }

/-- Why an answer could not be read. -/
inductive DecodeError where
  /-- The text is not JSON. -/
  | malformed (problem : LocatedError)
  /-- The text is JSON, but not target information. -/
  | wrongShape (problem : LocatedError)

def DecodeError.problem : DecodeError → LocatedError
  | .malformed p | .wrongShape p => p

def DecodeError.message : DecodeError → String
  | .malformed p =>
    "target info is not well-formed JSON at line " ++ toString p.position.line ++ ", column "
      ++ toString p.position.column
  | .wrongShape p => "target info does not match the expected shape: " ++ p.message

def DecodeError.ofProblem (p : LocatedError) : DecodeError :=
  match p.cause.category with
  | .shape => .wrongShape p
  | .grammar | .ending => .malformed p

/-- The answer in a captured output. -/
def decode (text : Bytes) : Except DecodeError TargetInfo :=
  ((record.read Json.maxDepth).run text).mapError fun e => .ofProblem (e.locate text)

def toJson (i : TargetInfo) : Value :=
  .object (("target", i.target.toJson)
    :: (i.variant.toList.map fun t => ("targetVariant", t.toJson))
    ++ (i.paths.toList.map fun p => ("paths", p.toJson)))

/-- The answer as a frontend would print it, with a member a line. -/
def encode (i : TargetInfo) : String := i.toJson.toPretty

end TargetInfo

end TargetQuery
