import TargetQuery.Script.Integer

/-!
# Sums

Arithmetic in scripts: numbers of sixty-four bits that wrap around, variables, the operators of C
and assignments. What a condition excludes is read but not evaluated.
-/

namespace TargetQuery.Script

/-- The smallest units of a sum. -/
inductive Term where
  | number (n : Int64)
  | variable (name : Chars)
  | operator (s : String)
  | bad
deriving DecidableEq

/-- A sum that is being evaluated. -/
structure Summing where
  terms : List Term
  /-- The variables that have been assigned to, the latest first. -/
  assigned : List (Chars × Int64) := []

abbrev Evaluation := StateT Summing (Except String)

namespace Sum

/-- The operators, longer ones before their beginnings. -/
def operators : List String :=
  ["<<=", ">>=", "<<", ">>", "<=", ">=", "==", "!=", "&&", "||", "+=", "-=", "*=", "/=", "%=", "&=",
    "^=", "|=", "<", ">", "=", "+", "-", "*", "/", "%", "&", "|", "^", "!", "~", "(", ")", "?", ":"]

/-- The terms of a sum. The fuel bounds their number. -/
def termsFrom : Nat → Chars → List Term
  | 0, _ => []
  | _ + 1, [] => []
  | fuel + 1, c :: rest =>
    if isBlank c || c == '\n' then termsFrom fuel rest
    else if c.isDigit then
      let r := IntegerRead.ofChars none (c :: rest)
      .number (Int64.ofInt r.value) :: termsFrom fuel r.rest
    else if isNameStart c then
      let name := (c :: rest).takeWhile isNameChar
      .variable name :: termsFrom fuel ((c :: rest).drop name.length)
    else match operators.find? fun o => o.toList.isPrefixOf (c :: rest) with
      | some o => .operator o :: termsFrom fuel ((c :: rest).drop o.length)
      | none => .bad :: termsFrom fuel rest

/-- How tightly an operator between two values binds; small numbers bind tightly. -/
def level? : String → Option Nat
  | "*" | "/" | "%" => some 1
  | "+" | "-" => some 2
  | "<<" | ">>" => some 3
  | "<" | "<=" | ">" | ">=" => some 4
  | "==" | "!=" => some 5
  | "&" => some 6
  | "^" => some 7
  | "|" => some 8
  | _ => none

/-- One for a condition that holds, otherwise zero. -/
def truth (b : Bool) : Int64 := if b then 1 else 0

def combine (operator : String) (a b : Int64) : Except String Int64 :=
  match operator with
  | "*" => .ok (a * b)
  | "/" => if b == 0 then .error "division by zero" else .ok (a / b)
  | "%" => if b == 0 then .error "division by zero" else .ok (a % b)
  | "+" => .ok (a + b)
  | "-" => .ok (a - b)
  | "<<" => .ok (a <<< b)
  | ">>" => .ok (a >>> b)
  | "<" => .ok (truth (a < b))
  | "<=" => .ok (truth (a ≤ b))
  | ">" => .ok (truth (b < a))
  | ">=" => .ok (truth (b ≤ a))
  | "==" => .ok (truth (a == b))
  | "!=" => .ok (truth (a != b))
  | "&" => .ok (a &&& b)
  | "^" => .ok (a ^^^ b)
  | _ => .ok (a ||| b)

/-- The operator in front of the equals sign of an assignment, if it is one. -/
def assigning? (operator : String) : Option (Option String) :=
  if operator == "=" then some none
  else
    let inner := String.ofList operator.toList.dropLast
    if operator.toList.getLast? == some '=' && (level? inner).isSome
        && (level? operator).isNone then some (some inner)
    else none

def peek : Evaluation (Option Term) := do pure (← get).terms.head?

def take : Evaluation (Option Term) := do
  let s ← get
  set { s with terms := s.terms.tail }
  pure s.terms.head?

def takeIf (o : String) : Evaluation Bool := do
  if (← peek) == some (.operator o) then
    let _ ← take
    pure true
  else pure false

/-- The value of a variable; one that is not set is zero. -/
def value (lookup : Chars → Option Chars) (name : Chars) : Evaluation Int64 := do
  match (← get).assigned.lookup name with
  | some n => pure n
  | none =>
    let text := (lookup name).getD []
    match integer? none text with
    | some n => pure (Int64.ofInt n)
    | none => throw ("Illegal number: " ++ String.ofList text)

def fail {α : Type} (text : Chars) (why : String) : Evaluation α :=
  throw ("arithmetic expression: " ++ why ++ ": \"" ++ String.ofList text ++ "\"")

mutual

/-- A number, a variable, or a sum in parentheses, with the operators in front of it. -/
def primary (lookup : Chars → Option Chars) (text : Chars) : Nat → Bool → Evaluation Int64
  | 0, _ => fail text "expecting primary"
  | fuel + 1, skipped => do
    match ← take with
    | some (.number n) => pure n
    | some (.variable name) => if skipped then pure 0 else value lookup name
    | some (.operator "(") =>
      let n ← assignment lookup text fuel skipped
      if ← takeIf ")" then pure n else fail text "expecting ')'"
    | some (.operator "+") => primary lookup text fuel skipped
    | some (.operator "-") => do pure (-(← primary lookup text fuel skipped))
    | some (.operator "!") => do pure (truth ((← primary lookup text fuel skipped) == 0))
    | some (.operator "~") => do pure (~~~(← primary lookup text fuel skipped))
    | _ => fail text "expecting primary"

/-- Values with operators between them that bind at least as tightly as the level. -/
def binary (lookup : Chars → Option Chars) (text : Chars) : Nat → Nat → Bool → Evaluation Int64
  | 0, _, _ => fail text "expecting primary"
  | fuel + 1, level, skipped => do
    let a ← primary lookup text fuel skipped
    moreBinary lookup text fuel level skipped a

def moreBinary (lookup : Chars → Option Chars) (text : Chars) :
    Nat → Nat → Bool → Int64 → Evaluation Int64
  | 0, _, _, a => pure a
  | fuel + 1, level, skipped, a => do
    match ← peek with
    | some (.operator o) =>
      match level? o with
      | none => pure a
      | some n =>
        if level < n then pure a
        else
          let _ ← take
          let b ← binary lookup text fuel (n - 1) skipped
          let c ← if skipped then pure b
            else match combine o a b with
              | .ok c => pure c
              | .error why => fail text why
          moreBinary lookup text fuel level skipped c
    | _ => pure a

def conjunction (lookup : Chars → Option Chars) (text : Chars) : Nat → Bool → Evaluation Int64
  | 0, _ => fail text "expecting primary"
  | fuel + 1, skipped => do
    let a ← binary lookup text fuel 8 skipped
    if ← takeIf "&&" then
      let b ← conjunction lookup text fuel (skipped || a == 0)
      pure (truth (a != 0 && b != 0))
    else pure a

def disjunction (lookup : Chars → Option Chars) (text : Chars) : Nat → Bool → Evaluation Int64
  | 0, _ => fail text "expecting primary"
  | fuel + 1, skipped => do
    let a ← conjunction lookup text fuel skipped
    if ← takeIf "||" then
      let b ← disjunction lookup text fuel (skipped || a != 0)
      pure (truth (a != 0 || b != 0))
    else pure a

def conditional (lookup : Chars → Option Chars) (text : Chars) : Nat → Bool → Evaluation Int64
  | 0, _ => fail text "expecting primary"
  | fuel + 1, skipped => do
    let a ← disjunction lookup text fuel skipped
    if ← takeIf "?" then
      let b ← assignment lookup text fuel (skipped || a == 0)
      if ← takeIf ":" then
        let c ← conditional lookup text fuel (skipped || a != 0)
        pure (if a != 0 then b else c)
      else fail text "expecting ':'"
    else pure a

def assignment (lookup : Chars → Option Chars) (text : Chars) : Nat → Bool → Evaluation Int64
  | 0, _ => fail text "expecting primary"
  | fuel + 1, skipped => do
    match (← get).terms with
    | .variable name :: .operator o :: rest =>
      match assigning? o with
      | none => conditional lookup text fuel skipped
      | some operator? =>
        modify fun s => { s with terms := rest }
        let b ← assignment lookup text fuel skipped
        if skipped then pure b
        else
          let c ← match operator? with
            | none => pure b
            | some o =>
              match combine o (← value lookup name) b with
              | .ok c => pure c
              | .error why => fail text why
          modify fun s => { s with assigned := (name, c) :: s.assigned }
          pure c
    | _ => conditional lookup text fuel skipped

end

/-- Evaluates a sum. With its value come the assignments in it, the latest first; without a value,
it is said why there is none. -/
def evaluate (lookup : Chars → Option Chars) (text : Chars) :
    Except String (Int64 × List (Chars × Int64)) :=
  let whole : Evaluation Int64 := do
    let n ← assignment lookup text (8 * text.length + 16) false
    match ← peek with
    | none => pure n
    | some _ => fail text "expecting EOF"
  match whole.run { terms := termsFrom (text.length + 1) text } with
  | .ok (n, s) => .ok (n, s.assigned)
  | .error why => .error why

end Sum

end TargetQuery.Script
