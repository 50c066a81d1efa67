import TargetQuery.Script.Integer
import TargetQuery.Script.Shell

/-!
# Conditions

Comparisons of texts and numbers, questions about files, and what can be made of them with a
negation, parentheses, `-a` and `-o`. What an argument means depends on those around it: three of
them with a comparison in the middle are a comparison, whatever the others look like.
-/

namespace TargetQuery.Script.Condition

/-- What an argument may mean besides itself. -/
inductive Sign where
  | unary (c : Char)
  | binary (s : String)
  | both
  | either
  | negation
  | opening
  | closing
deriving DecidableEq, Repr

def comparisons : List String :=
  ["=", "!=", "<", ">", "-eq", "-ne", "-ge", "-gt", "-le", "-lt", "-nt", "-ot", "-ef"]

def sign? (a : Chars) : Option Sign :=
  match a with
  | ['!'] => some .negation
  | ['('] => some .opening
  | [')'] => some .closing
  | ['-', 'a'] => some .both
  | ['-', 'o'] => some .either
  | ['-', c] => if "bcdefghkprstuwxznGLOS".toList.contains c then some (.unary c) else none
  | a => if comparisons.contains (String.ofList a) then some (.binary (String.ofList a)) else none

def read : List Chars → Option Sign
  | [] => none
  | a :: rest =>
    let comparison : Bool := match rest with
      | b :: _ :: _ => match sign? b with
        | some (.binary _) => true
        | _ => false
      | _ => false
    match sign? a with
    | some (.unary c) => if rest.isEmpty || comparison then none else some (.unary c)
    | some .opening => if rest.isEmpty then none else some .opening
    | s => s

/-- Whether a question about a file is answered with yes. -/
def ofFile (w : World) (c : Char) (name : Chars) : Bool :=
  let ofDevice : Bool := "cerwOG".toList.contains c
  if (streamOf? name).isSome then ofDevice
  else match w.files.locate w.here (Shell.pathOf name) with
    | .error _ => false
    | .ok (_, .device _) => ofDevice
    | .ok (_, .directory) => "dersxwOG".toList.contains c
    | .ok (_, .file mode content) =>
      match c with
      | 'r' => FileTree.modeReads mode
      | 'w' => FileTree.modeWrites mode
      | 'x' => FileTree.modeRuns mode
      | 's' => !content.isEmpty
      | 'u' => mode &&& 0o4000 != 0
      | 'g' => mode &&& 0o2000 != 0
      | 'k' => mode &&& 0o1000 != 0
      | c => "efOG".toList.contains c

def number (a : Chars) : Except Chars Int :=
  match integer? (some 10) a with
  | some n => .ok n
  | none => .error ("Illegal number: ".toList ++ a)

def isSameFile (w : World) (a b : Chars) : Bool :=
  match w.files.locate w.here (Shell.pathOf a), w.files.locate w.here (Shell.pathOf b) with
  | .ok (p, _), .ok (q, _) => p == q
  | _, _ => false

def compare (w : World) (operator : String) (a b : Chars) : Except Chars Bool := do
  let numbers (holds : Int → Int → Bool) : Except Chars Bool := do
    let m ← number a
    let n ← number b
    pure (holds m n)
  match operator with
  | "=" => pure (a == b)
  | "!=" => pure (a != b)
  | "<" => pure (String.ofList a < String.ofList b)
  | ">" => pure (String.ofList b < String.ofList a)
  | "-eq" => numbers (· == ·)
  | "-ne" => numbers (· != ·)
  | "-ge" => numbers fun m n => n ≤ m
  | "-gt" => numbers fun m n => n < m
  | "-le" => numbers fun m n => m ≤ n
  | "-lt" => numbers fun m n => m < n
  | "-ef" => pure (isSameFile w a b)
  | _ => pure false

/-- A condition whose last argument is the first of those that are left. -/
abbrev Answer := Except Chars (Bool × List Chars)

mutual

def either (w : World) : Nat → List Chars → Answer
  | 0, left => .ok (false, left)
  | fuel + 1, left => do
    let (a, left) ← both w fuel left
    if read left.tail = some .either then
      let (b, left) ← either w fuel (left.drop 2)
      pure (a || b, left)
    else pure (a, left)

def both (w : World) : Nat → List Chars → Answer
  | 0, left => .ok (false, left)
  | fuel + 1, left => do
    let (a, left) ← negated w fuel left
    if read left.tail = some .both then
      let (b, left) ← both w fuel (left.drop 2)
      pure (a && b, left)
    else pure (a, left)

def negated (w : World) : Nat → List Chars → Answer
  | 0, left => .ok (false, left)
  | fuel + 1, left => do
    if read left = some .negation then
      if left.tail.isEmpty then pure (true, left)
      else
        let (a, left) ← negated w fuel left.tail
        pure (!a, left)
    else primary w fuel left

def primary (w : World) : Nat → List Chars → Answer
  | 0, left => .ok (false, left)
  | fuel + 1, left => do
    match left, read left with
    | [], _ => pure (false, left)
    | _ :: rest, some .opening =>
      if read rest = some .closing then pure (false, rest)
      else
        let (a, left) ← either w fuel rest
        if read left.tail = some .closing then pure (a, left.tail)
        else throw "closing paren expected".toList
    | operator :: rest, some (.unary c) =>
      match rest with
      | [] => throw (operator ++ ": argument expected".toList)
      | a :: _ =>
        match c with
        | 'n' => pure (!a.isEmpty, rest)
        | 'z' => pure (a.isEmpty, rest)
        | 't' => do
          let _ ← number a
          pure (false, rest)
        | c => pure (ofFile w c a, rest)
    | a :: rest, _ =>
      match read rest with
      | some (.binary operator) =>
        match rest.tail with
        | [] => throw (operator.toList ++ ": argument expected".toList)
        | b :: _ => do
          let holds ← compare w operator a b
          pure (holds, rest.tail)
      | _ => pure (!a.isEmpty, left)

end

/-- Whether the condition that arguments state holds. The fuel bounds the negations in front. -/
def holdsFrom (w : World) : Nat → List Chars → Except Chars Bool
  | 0, _ => .ok false
  | fuel + 1, arguments =>
    let whole (arguments : List Chars) : Except Chars Bool := do
      let (a, left) ← either w (4 * arguments.length + 4) arguments
      match left with
      | operator :: _ :: _ => throw (operator ++ ": unexpected operator".toList)
      | _ => pure a
    match arguments with
    | [] => .ok false
    | [a, operator, b] =>
      match sign? operator with
      | some (.binary operator) => compare w operator a b
      | _ =>
        if a == ['('] && b == [')'] then whole [operator]
        else if a == ['!'] then (holdsFrom w fuel [operator, b]).map (!·)
        else whole arguments
    | [a, b, c, d] =>
      if a == ['('] && d == [')'] then whole [b, c]
      else if a == ['!'] then (holdsFrom w fuel [b, c, d]).map (!·)
      else whole arguments
    | arguments => whole arguments

def holds (w : World) (arguments : List Chars) : Except Chars Bool :=
  holdsFrom w (arguments.length + 1) arguments

end TargetQuery.Script.Condition
