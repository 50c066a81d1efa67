import TargetQuery.Script.Chars

/-!
# Commands of scripts

What a script says, once it has been read: words, whose pieces are text, parameters, sums and the
output of other commands; redirections; and commands, from a single one to loops and functions.
-/

namespace TargetQuery.Script

/-- What happens to a parameter that is not set. -/
inductive Otherwise where
  /-- The word takes its place. -/
  | default
  /-- The word takes its place if the parameter is set. -/
  | alternative
  /-- The word becomes its value. -/
  | assign
  /-- The script fails with the word as its message. -/
  | fail
deriving DecidableEq, Repr

inductive Opening where
  | read
  | readWrite
  /-- What was in the file is dropped. -/
  | write
  /-- As for writing, even if files are not to be overwritten. -/
  | overwrite
  | append
deriving DecidableEq, Repr

mutual

inductive Piece where
  | plain (c : Char)
  /-- A character without any meaning of its own. -/
  | quoted (c : Char)
  /-- An opening or closing quote. -/
  | mark
  | parameter (quoted : Bool) (name : Chars) (use : Use)
  | sum (quoted : Bool) (expression : List Piece)
  | output (quoted : Bool) (c : Command)

/-- What becomes of the value of a parameter. -/
inductive Use where
  | value
  | length
  /-- An empty value may count as none. -/
  | otherwise (o : Otherwise) (emptyToo : Bool) (word : List Piece)
  /-- Something is taken off, as much or as little as can be. -/
  | trim (atEnd longest : Bool) (pattern : List Piece)
  /-- Something that has no meaning. -/
  | unknown

inductive Redirection where
  | file (stream : Nat) (opening : Opening) (name : List Piece)
  /-- The word gives the number of another stream, or a dash to close this one. -/
  | duplicate (stream : Nat) (other : List Piece)
  /-- A document of the script, by its number. -/
  | document (stream : Nat) (number : Nat)

/-- A command. Lines are counted for messages. -/
inductive Command where
  | nothing
  | simple (line : Nat) (assignments words : List (List Piece)) (redirections : List Redirection)
  | redirected (line : Nat) (c : Command) (redirections : List Redirection)
  | subshell (line : Nat) (c : Command) (redirections : List Redirection)
  | background (line : Nat) (c : Command) (redirections : List Redirection)
  | pipeline (cs : List Command)
  | negated (c : Command)
  | both (c d : Command)
  | either (c d : Command)
  | sequence (c d : Command)
  | choice (condition yes no : Command)
  /-- A loop that goes on while its condition holds, or as long as it does not. -/
  | loop (wanted : Bool) (condition body : Command)
  | each (line : Nat) (name : Chars) (words : List (List Piece)) (body : Command)
  | select (line : Nat) (word : List Piece) (branches : List Branch)
  | define (line : Nat) (name : Chars) (body : Command)

/-- A branch of a selection: patterns, and what is done if one of them fits. -/
inductive Branch where
  | mk (patterns : List (List Piece)) (body : Command)

end

abbrev Word := List Piece

instance : Inhabited Command := ⟨.nothing⟩

/-- The text of a word in which nothing is quoted and nothing is to be replaced. -/
def plainText? (w : Word) : Option Chars :=
  w.mapM fun
    | .plain c => some c
    | _ => none

/-- The text of a word as it is written, without its quotes, where nothing is replaced. -/
def literalText (w : Word) : Chars :=
  w.flatMap fun
    | .plain c | .quoted c => [c]
    | _ => []

def isQuoted (w : Word) : Bool :=
  w.any fun
    | .quoted _ | .mark => true
    | _ => false

def assignment? (w : Word) : Option (Chars × Word) :=
  let plain (p : Piece) : Option Char :=
    match p with
    | .plain c => some c
    | _ => none
  let name := ((w.map plain).takeWhile fun c => c.any isNameChar).filterMap id
  match w.drop name.length with
  | .plain '=' :: value => if isName name then some (name, value) else none
  | _ => none

end TargetQuery.Script
