import TargetQuery.Settings.Basic
import TargetQuery.Text.Decimal
import TargetQuery.Text.Quoted
import TargetQuery.Toml.Document

/-!
# Settings as TOML

Settings are the members of a table `toolchain`. Other members, there and elsewhere, are ignored.
The table may also be written as an array of the values in their order. What is written can always
be read back.
-/

namespace TargetQuery

/-- A value of the wrong kind. -/
structure Toml.Mismatch where
  /-- The value that was found. -/
  found : Toml.Value
  expected : String

namespace Toml.Value

def describe : Toml.Value → String
  | .text s => "string " ++ Quoted.render s
  | .integer n => "integer `" ++ toString n ++ "`"
  | .float x => "floating point `" ++ Decimal.plain.render x ++ "`"
  | .bool b => "boolean `" ++ (if b then "true" else "false") ++ "`"
  | .array _ | .tables _ => "sequence"
  | .table .. | .dateTime _ => "map"

end Toml.Value

def Toml.Mismatch.message (m : Toml.Mismatch) : String :=
  "invalid type: " ++ m.found.describe ++ ", expected " ++ m.expected

namespace Settings

/-- One setting: its name, and how a text sets it. -/
structure Field where
  name : String
  expected : String
  set : Settings → String → Settings

/-- The settings in the order in which they are written. -/
def fields : List Field :=
  [⟨"frontend", "path string", fun s text => { s with frontend := some (Path.ofString text) }⟩,
   ⟨"sdk", "path string", fun s text => { s with sdk := some (Path.ofString text) }⟩,
   ⟨"resource-dir", "path string",
      fun s text => { s with resourceDir := some (Path.ofString text) }⟩,
   ⟨"target", "a string", fun s text => { s with target := some ⟨text⟩ }⟩,
   ⟨"target-variant", "a string", fun s text => { s with targetVariant := some ⟨text⟩ }⟩]

def Field.read (f : Field) (s : Settings) : Toml.Value → Except Toml.Mismatch Settings
  | .text text => .ok (f.set s text)
  | found => .error ⟨found, f.expected⟩

/-- Sets the settings that members of a table name, in the order of the members. -/
def readMember (s : Settings) (m : String × Toml.Value) : Except Toml.Mismatch Settings :=
  match fields.find? (·.name == m.1) with
  | some f => f.read s m.2
  | none => .ok s

def ofMembers (ms : Toml.Members) : Except Toml.Mismatch Settings := ms.foldlM readMember {}

def ofItems (items : List Toml.Value) : Except Toml.Mismatch Settings :=
  (fields.zip items).foldlM (fun s f => f.1.read s f.2) {}

def ofValue : Toml.Value → Except Toml.Mismatch Settings
  | .table _ members => ofMembers members
  | .array items => ofItems items
  | .tables elements => ofItems (elements.map (.table .header))
  | .dateTime _ => .ok {}
  | found => .error ⟨found, "struct ToolchainSettings"⟩

def tableName : String := "toolchain"

def ofDocument (d : Toml.Members) : Except Toml.Mismatch Settings :=
  match d.find? tableName with
  | some v => ofValue v
  | none => .ok {}

def pathText (p : Path) : Option String := Utf8.decode? p.bytes

/-- The names and texts of the settings that are given, if all of them have a text. -/
def entries? (s : Settings) : Option (List (String × String)) := do
  let path (p : Option Path) : Option (Option String) := p.mapM pathText
  let texts : List (Option String) :=
    [← path s.frontend, ← path s.sdk, ← path s.resourceDir, s.target.map Triple.text,
     s.targetVariant.map Triple.text]
  some ((fields.zip texts).filterMap fun f => f.2.map fun text => (f.1.name, text))

def renderEntry (e : String × String) : List Char :=
  e.1.toList ++ [' ', '=', ' '] ++ Toml.quote e.2.toList ++ ['\n']

def toToml? (s : Settings) : Option String := do
  let entries ← s.entries?
  some (String.ofList ("[toolchain]\n".toList ++ entries.flatMap renderEntry))

end Settings

end TargetQuery
