import TargetQuery.CommandLine.Invocation

/-!
# Help and completions

The texts that describe the command line: how it is used, and scripts with which a shell completes
its words.
-/

namespace TargetQuery.CommandLine

def programName : String := "mooring"

def version : String := programName ++ " 0.1.0\n"

def usage : String :=
  "Usage: mooring [--verbose] [--no-color] <COMMAND>\n\n"
    ++ "Commands:\n"
    ++ "  target-info [--target <TARGET>] [--target-variant <TARGET_VARIANT>] [--sdk <SDK>]\n"
    ++ "              [--resource-dir <RESOURCE_DIR>] [--in-place] [--print-job]\n"
    ++ "              [--format json|human]\n"
    ++ "  toolchain show\n"
    ++ "  toolchain override [--frontend <FRONTEND>] [--sdk <SDK>]\n"
    ++ "              [--resource-dir <RESOURCE_DIR>] [--target <TARGET>]\n"
    ++ "              [--target-variant <TARGET_VARIANT>]\n"
    ++ "  completions bash|elvish|fish|powershell|zsh\n"

/-- The words of a command: its subcommands, and its flags and options behind two dashes. -/
def words (g : Grammar) : List String :=
  g.subcommands.map (·.1) ++ (g.flags ++ g.options.map (·.1)).map ("--" ++ ·)

def allWords : List String :=
  let commands := grammar.subcommands.map (·.2)
  let inner := commands.flatMap fun g => words g ++ g.subcommands.flatMap fun s => words s.2
  (words grammar ++ inner).eraseDups

/-- A script that makes a shell complete the words of the program. -/
def completionScript (shell : CompletionShell) : String :=
  let list := " ".intercalate allWords
  match shell with
  | .bash => "complete -W '" ++ list ++ "' " ++ programName ++ "\n"
  | .zsh => "#compdef " ++ programName ++ "\ncompadd -- " ++ list ++ "\n"
  | .fish => "complete -c " ++ programName ++ " -f -a '" ++ list ++ "'\n"
  | .elvish =>
    "set edit:completion:arg-completer[" ++ programName ++ "] = \x7b|@words| put " ++ list
      ++ " \x7d\n"
  | .powershell =>
    "Register-ArgumentCompleter -Native -CommandName '" ++ programName
      ++ "' -ScriptBlock \x7b '" ++ list ++ "' -split ' ' \x7d\n"

end TargetQuery.CommandLine
