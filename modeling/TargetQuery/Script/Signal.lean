import TargetQuery.Script.Shell

/-!
# Signals

The signals by their numbers and names, what they do to a process that does not expect them, and
sending them. A process that is not the one which runs can be ended by a signal too, as long as it
is running further out.
-/

namespace TargetQuery.Script.Signal

def names : List String :=
  ["HUP", "INT", "QUIT", "ILL", "TRAP", "ABRT", "BUS", "FPE", "KILL", "USR1", "SEGV", "USR2",
    "PIPE", "ALRM", "TERM", "STKFLT", "CHLD", "CONT", "STOP", "TSTP", "TTIN", "TTOU", "URG", "XCPU",
    "XFSZ", "VTALRM", "PROF", "WINCH", "IO", "PWR", "SYS"]

/-- The name under which scripts ask for something to be done on exit. -/
def exitName : String := "EXIT"

def name (n : Nat) : String :=
  if n == 0 then exitName else (names[n - 1]?).getD (toString n)

def ofChars? (s : Chars) : Option Nat :=
  match natural? s with
  | some n => if n ≤ 64 then some n else none
  | none =>
    let s := String.ofList (s.map Char.toUpper)
    let s := if s.startsWith "SIG" then String.ofList (s.toList.drop 3) else s
    if s == exitName then some 0 else (names.idxOf? s).map (· + 1)

/-- Signals that do nothing to a process which does not expect them. -/
def isHarmless (n : Nat) : Bool := [17, 18, 19, 20, 21, 22, 23, 28].contains n

/-- What is said about a process that a signal has ended. -/
def description (n : Nat) : String :=
  let known : List (Nat × String) :=
    [(1, "Hangup"), (2, "Interrupt"), (3, "Quit"), (4, "Illegal instruction"),
      (5, "Trace/breakpoint trap"), (6, "Aborted"), (7, "Bus error"),
      (8, "Floating point exception"), (9, "Killed"), (10, "User defined signal 1"),
      (11, "Segmentation fault"), (12, "User defined signal 2"), (13, "Broken pipe"),
      (14, "Alarm clock"), (15, "Terminated"), (16, "Stack fault"),
      (24, "CPU time limit exceeded"), (25, "File size limit exceeded"),
      (26, "Virtual timer expired"), (27, "Profiling timer expired"), (29, "I/O possible"),
      (30, "Power failure"), (31, "Bad system call")]
  (known.lookup n).getD ("Signal " ++ toString n)

def isSilent (n : Nat) : Bool := n == 2 || n == 13

def send (n process : Nat) : Run Bool := do
  let s ← get
  let own := process == s.process
  let canBeTrapped := n != 9 && n != 19
  if !own && process != s.mainProcess && process != s.parent then pure false
  else if n == 0 then pure true
  else if !own && canBeTrapped && s.guarded.contains (process, n) then
    set { s with sent := s.sent ++ [(process, n)] }
    pure true
  else match if own && canBeTrapped then s.traps.lookup n else none with
    | some action =>
      if !action.isEmpty then set { s with pending := s.pending ++ [n] }
      pure true
    | none =>
      if isHarmless n then pure true else throw (.killed process n)

end TargetQuery.Script.Signal
