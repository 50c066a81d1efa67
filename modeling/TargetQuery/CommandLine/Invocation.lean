import TargetQuery.CommandLine.Arguments
import TargetQuery.Settings.Basic

/-!
# Invocations

What the program can be asked to do, and the command line that asks for it.
-/

namespace TargetQuery.CommandLine

/-- How target information is printed. -/
inductive OutputFormat where
  /-- The JSON that the frontend printed, written anew. -/
  | json
  /-- A summary for people. -/
  | human
deriving DecidableEq, Repr

inductive CompletionShell where
  | bash
  | elvish
  | fish
  | powershell
  | zsh
deriving DecidableEq, Repr

namespace CompletionShell

def name : CompletionShell → String
  | .bash => "bash"
  | .elvish => "elvish"
  | .fish => "fish"
  | .powershell => "powershell"
  | .zsh => "zsh"

def all : List CompletionShell := [.bash, .elvish, .fish, .powershell, .zsh]

def ofName? (name : String) : Option CompletionShell := all.find? (·.name == name)

end CompletionShell

/-- What the program is asked to do. -/
inductive Request where
  /-- Describe a target, or only print the job that would. -/
  | describe (options : Options) (printJob : Bool) (format : OutputFormat)
  | showToolchain
  | overrideToolchain (settings : Settings)
  | completions (shell : CompletionShell)

structure Invocation where
  /-- The log shows details. -/
  verbose : Bool
  colours : Bool
  request : Request

def commonFlags : List String := ["verbose", "no-color"]

def targetOptions : List (String × ValueKind) :=
  [("target", .text), ("target-variant", .text), ("sdk", .path), ("resource-dir", .path)]

/-- The command line of the program. -/
def grammar : Grammar :=
  let describe := Grammar.mk ("in-place" :: "print-job" :: commonFlags)
    (targetOptions ++ [("format", .choice ["json", "human"])]) [] []
  let show_ := Grammar.mk commonFlags [] [] []
  let override := Grammar.mk commonFlags (("frontend", .path) :: targetOptions) [] []
  let toolchain := Grammar.mk commonFlags [] [] [("show", show_), ("override", override)]
  let completions := Grammar.mk commonFlags [] [.choice (CompletionShell.all.map (·.name))] []
  .mk commonFlags [] []
    [("target-info", describe), ("toolchain", toolchain), ("completions", completions)]

namespace Invocation

def optionsOf (g : Given) : Options where
  target := (g.text? "target").map Triple.mk
  targetVariant := (g.text? "target-variant").map Triple.mk
  sdk := g.path? "sdk"
  resourceDir := g.path? "resource-dir"
  inPlace := g.hasFlag "in-place"

def settingsOf (g : Given) : Settings where
  frontend := g.path? "frontend"
  sdk := g.path? "sdk"
  resourceDir := g.path? "resource-dir"
  target := (g.text? "target").map Triple.mk
  targetVariant := (g.text? "target-variant").map Triple.mk

def requestOf (path : List String) (g : Given) : Option Request :=
  match path with
  | ["target-info"] =>
    let format := if g.text? "format" == some "human" then .human else .json
    some (.describe (optionsOf g) (g.hasFlag "print-job") format)
  | ["toolchain", "show"] => some .showToolchain
  | ["toolchain", "override"] => some (.overrideToolchain (settingsOf g))
  | ["completions"] => do
    let shell ← g.operands.head?
    some (.completions (← CompletionShell.ofName? (Utf8.lossy shell)))
  | _ => none

/-- The invocation that a command line is. -/
def ofArguments (arguments : List Bytes) : Except Stop Invocation := do
  let chosen ← read grammar 3 {} arguments
  match requestOf chosen.path chosen.last with
  | some request =>
    .ok { verbose := chosen.hasFlag "verbose", colours := !chosen.hasFlag "no-color", request }
  | none => .error .usage

end Invocation

end TargetQuery.CommandLine
