/-!
# Diagnostics

What people are told: one headline, lines of context below it, and numbered suggestions at the end.
Colours are added around single words, so that the text is the same with and without them.
-/

namespace TargetQuery

inductive Severity where
  | error
  | warning
deriving DecidableEq, Repr

def Severity.name : Severity → String
  | .error => "error"
  | .warning => "warning"

/-- A message for people. -/
structure Diagnostic where
  severity : Severity
  message : String
  context : List String := []
  suggestions : List String := []
deriving DecidableEq, Repr

/-! What people can do about common problems. -/
namespace Advice

def fixConfiguredFrontend : String :=
  "Fix `frontend` in `.mooring/toolchain.toml` or `~/.mooring/toolchain.toml`"

def setFrontendVariable : String :=
  "Set MOORING_FRONTEND to the path of the frontend executable"

def installToolchain : String :=
  "Install a toolchain that provides `swift-frontend` or `swiftc` on PATH"

def checkTarget : String := "Check that the target triple and SDK path are valid"

def checkFrontendVersion : String := "Check that the frontend supports `-print-target-info`"

end Advice

namespace Diagnostic

def ofError (message : String) : Diagnostic := { severity := .error, message }

/-- A diagnostic of something that need not be an error. -/
def ofWarning (message : String) : Diagnostic := { severity := .warning, message }

def withContext (d : Diagnostic) (line : String) : Diagnostic :=
  { d with context := d.context ++ [line] }

def withSuggestion (d : Diagnostic) (line : String) : Diagnostic :=
  { d with suggestions := d.suggestions ++ [line] }

/-- The number of the colour in which a severity is shown. -/
def colour : Severity → String
  | .error => "31"
  | .warning => "33"

/-- A word in bold and in a colour, if colours are wanted. -/
def painted (wanted : Bool) (colour word : String) : String :=
  if wanted then "\x1b[1;" ++ colour ++ "m" ++ word ++ "\x1b[0m" else word

/-- The suggestions, numbered from one. -/
def numbered (lines : List String) : List String :=
  lines.zipIdx.map fun (line, i) => "  " ++ toString (i + 1) ++ ". " ++ line ++ "\n"

def render (d : Diagnostic) (colours : Bool) : String :=
  painted colours (colour d.severity) d.severity.name ++ ": " ++ d.message ++ "\n"
    ++ String.join (d.context.map fun line => "  = " ++ line ++ "\n")
    ++ (if d.suggestions.isEmpty then ""
        else "\n" ++ painted colours "32" "help" ++ ": consider:\n"
          ++ String.join (numbered d.suggestions))

end Diagnostic

end TargetQuery
