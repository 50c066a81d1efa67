import TargetQuery.Machine.World
import TargetQuery.Settings.Toml

/-!
# Settings files

Settings are kept in two files: one for the user, one for the project. Where both give something the
project counts. A file that cannot be read is a warning when settings are only looked up, and an
error before they are changed.
-/

namespace TargetQuery

/-- Why settings could not be read or kept. -/
inductive SettingsError where
  | unreadable (path : Path) (cause : SystemFailure)
  /-- The file is not TOML. -/
  | malformed (path : Path)
  /-- The file is TOML, but some value has the wrong kind. -/
  | wrongShape (path : Path) (mismatch : Toml.Mismatch)
  | noDirectory (path : Path) (cause : SystemFailure)
  | pathNotUnicode
  | unwritable (path : Path) (cause : SystemFailure)

namespace SettingsError

def message : SettingsError → String
  | .unreadable path _ => "failed to read toolchain config: " ++ path.display
  | .malformed path | .wrongShape path _ => "failed to parse toolchain config: " ++ path.display
  | .noDirectory path _ => "failed to create config directory: " ++ path.display
  | .pathNotUnicode => "failed to serialize toolchain config"
  | .unwritable path _ => "failed to write toolchain config: " ++ path.display

/-- Why it could not be done. -/
def cause : SettingsError → String
  | .unreadable _ failure | .noDirectory _ failure | .unwritable _ failure => failure.message
  | .malformed _ => "TOML parse error"
  | .wrongShape _ mismatch => "TOML parse error\n" ++ mismatch.message
  | .pathNotUnicode => "path contains invalid UTF-8 characters"

def report (e : SettingsError) : String := e.message ++ ": " ++ e.cause

end SettingsError

namespace Settings

def parse (path : Path) (text : String) : Except SettingsError Settings :=
  match Toml.document? text with
  | none => .error (.malformed path)
  | some d => (ofDocument d).mapError (.wrongShape path)

def load (path : Path) (w : World) : Except SettingsError Settings :=
  match w.files.readText w.here path with
  | .error failure => .error (.unreadable path failure)
  | .ok text => parse path text

def isPresent (path : Path) (w : World) : Bool := w.files.exists? w.here path

/-- Reads the settings in a file, which need not be there. -/
def loadIfPresent (path : Path) (w : World) : Except SettingsError Settings :=
  if isPresent path w then load path w else .ok {}

/-- Reads the settings in a file. One that cannot be read counts as empty, with a warning. -/
def loadOrDefault (path : Path) : Action Settings := do
  match loadIfPresent path (← get) with
  | .ok s => pure s
  | .error e =>
    log .warning ("Failed to load toolchain config from " ++ path.display ++ ": " ++ e.report)
    pure {}

/-- Reads one of several settings files on top of what is known. -/
def loadOnTop (kind : String) (path : Path) (below : Settings) : Action Settings := do
  if isPresent path (← get) then
    log .debug ("Loading " ++ kind ++ " toolchain config: " ++ path.display)
    pure (below.merge (← loadOrDefault path))
  else pure below

/-- Reads the settings of the user and, on top, those of the project. -/
def loadMerged (user project : Path) : Action Settings := do
  loadOnTop "project" project (← loadOnTop "global" user {})

/-- Makes the directory that a path lies in, if it lies in one. -/
def makeParent (path : Path) (w : World) : Except SettingsError World :=
  match path.parent? with
  | none => .ok w
  | some parent =>
    match w.files.makeAllDirectories w.here parent with
    | .ok files => .ok { w with files }
    | .error failure => .error (.noDirectory parent failure)

/-- Keeps settings in a file, which replaces what it held. Nothing is written unless all can be. -/
def save (s : Settings) (path : Path) : Action (Except SettingsError Unit) := do
  match makeParent path (← get) with
  | .error e => pure (.error e)
  | .ok w =>
    set w
    match s.toToml? with
    | none => pure (.error .pathNotUnicode)
    | some text =>
      match w.files.write w.here path 0o644 (Utf8.encode text) with
      | .error failure => pure (.error (.unwritable path failure))
      | .ok files =>
        set { w with files }
        pure (.ok ())

def directoryName : Path := Path.ofString ".mooring"

def fileName : Path := Path.ofString "toolchain.toml"

def userDirectory (w : World) : Path := w.home.join directoryName

def userFile (w : World) : Path := (userDirectory w).join fileName

def projectFile (root : Path) : Path := (root.join directoryName).join fileName

/-- Reads the settings of the user and of a project. -/
def loadFor (root : Path) : Action Settings := do
  loadMerged (userFile (← get)) (projectFile root)

end Settings

end TargetQuery
