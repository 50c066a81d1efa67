import TargetQuery.Script.Condition
import TargetQuery.Script.Utility.Basic

/-!
# Conditions of the utilities

The utility for conditions asks what the shell asks, but reads its arguments in a way of its own: up
to four arguments are read by their number, more of them by the operators that stand among them.
Numbers may be of any size.
-/

namespace TargetQuery.Script.Utility

/-- What stays the same while a condition is read. -/
structure Asked where
  world : World
  /-- The last argument. -/
  last : Chars
  /-- Whether the condition stands in brackets. -/
  inBrackets : Bool

/-- Reads a part of a condition from the arguments that are left. -/
abbrev Asking := ReaderT Asked (StateT (List Chars) (Except Chars))

namespace Asking

def beyond {α : Type} : Asking α := do
  throw ("missing argument after ".toList ++ quoted (← read).last)

def next : Asking Chars := do
  match ← get with
  | [] => beyond
  | a :: rest =>
    set rest
    pure a

def pass : Asking Unit := do
  let _ ← next
  if (← get).isEmpty then beyond

def comparisons : List String :=
  ["=", "==", "!=", "-nt", "-ot", "-ef", "-eq", "-ne", "-lt", "-le", "-gt", "-ge"]

def compares (a? : Option Chars) : Bool := a?.any fun a => comparisons.contains (String.ofList a)

/-- Whether the argument in front of a comparison stands for its length, which a mark says. -/
def isMeasured (left : List Chars) : Bool :=
  left.head? == some ['-', 'l'] && compares left[2]? && 4 ≤ left.length

def number (a : Chars) : Asking Int :=
  match whole? a with
  | some n => pure n
  | none => throw ("invalid integer ".toList ++ quoted a)

/-- Compares the two arguments beside an operator. -/
def comparison : Asking Bool := do
  let measured := isMeasured (← get)
  if measured then pass
  let a ← next
  let operator ← next
  let measuredToo := (← get).head? == some ['-', 'l'] && 2 ≤ (← get).length
  if measuredToo then pass
  let b ← next
  let numbers (holds : Int → Int → Bool) : Asking Bool := do
    let m ← if measured then pure (Int.ofNat a.length) else number a
    let n ← if measuredToo then pure (Int.ofNat b.length) else number b
    pure (holds m n)
  let { world := w, .. } ← read
  let isThere (name : Chars) : Bool := w.files.exists? w.here (Shell.pathOf name)
  match String.ofList operator with
  | "=" | "==" => pure (a == b)
  | "!=" => pure (a != b)
  | "-eq" => numbers (· == ·)
  | "-ne" => numbers (· != ·)
  | "-ge" => numbers fun m n => n ≤ m
  | "-gt" => numbers fun m n => n < m
  | "-le" => numbers fun m n => m ≤ n
  | "-lt" => numbers fun m n => m < n
  | "-nt" => pure (isThere a && !isThere b)
  | "-ot" => pure (!isThere a && isThere b)
  | _ => pure (Condition.isSameFile w a b)

def question : Asking Bool := do
  let operator ← next
  let c := operator.getLast?.getD ' '
  if !"bcdefghknprstuwxzGLNOS".toList.contains c then
    throw (quoted operator ++ ": unary operator expected".toList)
  else
    let a ← next
    match c with
    | 'n' => pure !a.isEmpty
    | 'z' => pure a.isEmpty
    | 't' =>
      let _ ← number a
      pure false
    | c => pure (Condition.ofFile (← read).world c a)

def asks : Option Chars → Bool
  | some ['-', _] => true
  | _ => false

def text : Asking Bool := do
  let a ← next
  pure !a.isEmpty

/-- Two arguments: a text denied, or a question. -/
def ofTwo : Asking Bool := do
  let left ← get
  if left.head? == some ['!'] then
    let _ ← next
    let holds ← text
    pure !holds
  else if asks left.head? then question
  else beyond

mutual

def either : Nat → Asking Bool
  | 0 => beyond
  | fuel + 1 => do
    if (← get).isEmpty then beyond
    else
      let a ← both fuel
      if (← get).head? == some ['-', 'o'] then
        let _ ← next
        let b ← either fuel
        pure (a || b)
      else pure a

def both : Nat → Asking Bool
  | 0 => beyond
  | fuel + 1 => do
    let a ← term fuel
    if (← get).head? == some ['-', 'a'] then
      let _ ← next
      let b ← both fuel
      pure (a && b)
    else pure a

def term : Nat → Asking Bool
  | 0 => beyond
  | fuel + 1 => do
    let left ← get
    match left with
    | [] => beyond
    | ['!'] :: _ =>
      pass
      let holds ← term fuel
      pure !holds
    | ['('] :: _ =>
      pass
      let holds ← ofCount fuel (countInside 1 left.tail)
      closing
      pure holds
    | a :: _ =>
      if isMeasured left || (compares left[1]? && 3 ≤ left.length) then comparison
      else if asks (some a) then question
      else text
where
  /-- How many arguments stand inside parentheses. Up to four of them are counted; more of them are
  all that are left. -/
  countInside (n : Nat) (inside : List Chars) : Nat :=
    match (inside.drop n).findIdx? (· == [')']) with
    | some i => if n + i ≤ 4 then n + i else inside.length
    | none => inside.length
  /-- The end of parentheses. -/
  closing : Asking Unit := do
    let expected : Chars := quoted [')'] ++ " expected".toList
    match ← get with
    | [] =>
      if (← read).inBrackets then throw (expected ++ ", found ".toList ++ quoted [']'])
      else throw expected
    | [')'] :: rest => set rest
    | a :: _ => throw (expected ++ ", found ".toList ++ quoted a)

def ofCount : Nat → Nat → Asking Bool
  | 0, _ => beyond
  | fuel + 1, n => do
    let left ← get
    let parenthesised := left.head? == some ['('] && left[n - 1]? == some [')']
    match n with
    | 1 => text
    | 2 => ofTwo
    | 3 =>
      if compares left[1]? then comparison
      else if left.head? == some ['!'] then
        pass
        let holds ← ofTwo
        pure !holds
      else if parenthesised then
        let _ ← next
        let holds ← text
        let _ ← next
        pure holds
      else if left[1]? == some ['-', 'a'] || left[1]? == some ['-', 'o'] then either fuel
      else throw (quoted (left[1]?.getD []) ++ ": binary operator expected".toList)
    | 4 =>
      if left.head? == some ['!'] then
        pass
        let holds ← ofCount fuel 3
        pure !holds
      else if parenthesised then
        let _ ← next
        let holds ← ofTwo
        let _ ← next
        pure holds
      else either fuel
    | _ => either fuel

end

/-- Whether the condition that arguments state holds, or what is wrong with them. -/
def holds (w : World) (inBrackets : Bool) (arguments : List Chars) : Except Chars Bool := do
  match arguments.getLast? with
  | none => pure false
  | some last =>
    let whole := ofCount (4 * arguments.length + 4) arguments.length
    match ← (whole.run ⟨w, last, inBrackets⟩).run arguments with
    | (holds, []) => pure holds
    | (_, a :: _) => throw ("extra argument ".toList ++ quoted a)

end Asking

def answer (inBrackets : Bool) (zero : Chars) (arguments : List Chars) : Task Nat := do
  match Asking.holds (← get).world inBrackets arguments with
  | .ok holds => pure (if holds then 0 else 1)
  | .error why =>
    complainAs zero why
    pure 2

def test : Utility := answer false

def bracket (zero : Chars) (arguments : List Chars) : Task Nat := do
  if arguments.getLast? == some [']'] then answer true zero arguments.dropLast
  else
    complainAs zero ("missing ".toList ++ quoted [']'])
    pure 2

end TargetQuery.Script.Utility
