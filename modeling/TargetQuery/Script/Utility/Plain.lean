import TargetQuery.Script.Regex.Grammar
import TargetQuery.Script.Utility.Basic

/-!
# Plain utilities

Programs that do nothing, that calculate and that show the environment.
-/

namespace TargetQuery.Script.Utility

def constantly (status : Nat) (_ : Chars) (_ : List Chars) : Task Nat := pure status

def sleep (zero : Chars) (arguments : List Chars) : Task Nat :=
  withOptions "" "" zero arguments fun o => do
    let isInterval (a : Chars) : Bool :=
      let digits := if "smhd".toList.any fun c => a.getLast? == some c then a.dropLast else a
      digits.any Char.isDigit && digits.all fun c => c.isDigit || c == '.'
    match o.operands.filter fun a => !isInterval a with
    | [] => if o.operands.isEmpty then refuse zero "missing operand".toList else pure 0
    | wrong =>
      wrong.dropLast.forM fun a => complainAs zero (invalid a)
      refuse zero (invalid (wrong.getLast?.getD []))
where
  /-- What is wrong with a time that is none. -/
  invalid (a : Chars) : Chars := "invalid time interval ".toList ++ quoted a

/-- Prints the values of variables, or all of them with their names. -/
def printenv (zero : Chars) (arguments : List Chars) : Task Nat :=
  withOptions "0" "" zero arguments (fun o => do
    let environment := (← get).world.environment
    let stop := if o.has '0' then [Char.ofNat 0] else ['\n']
    if o.operands.isEmpty then
      print (environment.flatMap fun v => v.1.toList ++ '=' :: ofBytes v.2 ++ stop)
      pure 0
    else
      let values := o.operands.map fun name => environment.lookup (String.ofList name)
      print (values.flatMap fun value => (value.map fun v => ofBytes v ++ stop).getD [])
      pure (if values.all Option.isSome then 0 else 1)) 2

/-! ### Calculations -/

/-- The number that a value is: digits, which may have a minus sign in front. -/
def plainNumber? (s : Chars) : Option Int :=
  let isPlain := s.head?.any (fun c => c.isDigit || c == '-') && s.getLast?.any Char.isDigit
  if isPlain then whole? s else none

def isNull (s : Chars) : Bool := s.isEmpty || plainNumber? s == some 0

/-- Operators between two values, by how loosely they bind. -/
def operatorLevel? (s : Chars) : Option Nat :=
  match String.ofList s with
  | ":" => some 1
  | "*" | "/" | "%" => some 2
  | "+" | "-" => some 3
  | "=" | "==" | "!=" | "<" | "<=" | ">" | ">=" => some 4
  | "&" => some 5
  | "|" => some 6
  | _ => none

/-- What an expression describes at the start of a text: the text of its group, or the length if it
has none. -/
def described (s expression : Chars) : Except Chars Chars := do
  let r ← (Regex.ofChars {} expression).mapError String.toList
  let t? := r.longest? false { rest := s }
  if r.groupCount == 0 then .ok (ofNat ((t?.map (·.passed)).getD 0))
  else .ok ((t?.bind fun t => t.groups.lookup 1).getD [])

def calculate (operator : String) (a b : Chars) : Except Chars Chars :=
  let ofInt (n : Int) : Chars := (toString n).toList
  let numbers (f : Int → Int → Except Chars Int) : Except Chars Chars :=
    match plainNumber? a, plainNumber? b with
    | some m, some n => (f m n).map ofInt
    | _, _ => .error "non-integer argument".toList
  let compared (holds : Ordering → Bool) : Except Chars Chars :=
    let order := match plainNumber? a, plainNumber? b with
      | some m, some n => Ord.compare m n
      | _, _ => Ord.compare (String.ofList a) (String.ofList b)
    .ok (if holds order then ['1'] else ['0'])
  let divided (f : Int → Int → Int) : Except Chars Chars :=
    numbers fun m n => if n == 0 then .error "division by zero".toList else .ok (f m n)
  match operator with
  | ":" => described a b
  | "*" => numbers fun m n => .ok (m * n)
  | "/" => divided Int.tdiv
  | "%" => divided Int.tmod
  | "+" => numbers fun m n => .ok (m + n)
  | "-" => numbers fun m n => .ok (m - n)
  | "=" | "==" => compared (· == .eq)
  | "!=" => compared (· != .eq)
  | "<" => compared (· == .lt)
  | "<=" => compared (· != .gt)
  | ">" => compared (· == .gt)
  | ">=" => compared (· != .lt)
  | "&" => .ok (if isNull a || isNull b then ['0'] else a)
  | _ => .ok (if !isNull a then a else if isNull b then ['0'] else b)

def needsSecond (operator a : Chars) : Bool :=
  match operator with
  | ['&'] => !isNull a
  | ['|'] => isNull a
  | _ => true

/-- The part of a text with so many characters that begins at a position, counted from one. -/
def partOf (s start count : Chars) : Chars :=
  match plainNumber? start, plainNumber? count with
  | some i, some n => if i < 1 || n < 1 then [] else (s.drop (i.toNat - 1)).take n.toNat
  | _, _ => []

def positionOf (s among : Chars) : Nat :=
  match s.findIdx? fun c => among.contains c with
  | some i => i + 1
  | none => 0

/-- Reads a calculation from the arguments that are left behind one that has been read last. -/
abbrev Calculation := StateT (Chars × List Chars) (Except Chars)

namespace Calculation

/-- Gives up because of a mistake in the order of the arguments. -/
def fail {α : Type} (text : Chars) : Calculation α := throw ("syntax error: ".toList ++ text)

def next : Calculation Chars := do
  match ← get with
  | (last, []) => fail ("missing argument after ".toList ++ quoted last)
  | (_, a :: rest) =>
    set (a, rest)
    pure a

/-- Passes the parenthesis at the end of a calculation. -/
def closing : Calculation Unit := do
  match ← get with
  | (last, []) => fail ("expecting ')' after ".toList ++ quoted last)
  | (_, [')'] :: rest) => set ((([')'] : Chars), rest))
  | (_, a :: _) => fail ("expecting ')' instead of ".toList ++ quoted a)

mutual

/-- Values with operators between them that bind at least as tightly as the level. Nothing is
calculated whose value is not needed. -/
def values : Nat → Nat → Bool → Calculation Chars
  | 0, _, _ => fail []
  | fuel + 1, level, needed => do
    let a ← value fuel needed
    more fuel level needed a

def more : Nat → Nat → Bool → Chars → Calculation Chars
  | 0, _, _, a => pure a
  | fuel + 1, level, needed, a => do
    match ← get with
    | (_, operator :: rest) =>
      match operatorLevel? operator with
      | some n =>
        if level < n then pure a
        else
          set (operator, rest)
          let b ← values fuel (n - 1) (needed && needsSecond operator a)
          let c ← if needed && needsSecond operator a then
              liftM (calculate (String.ofList operator) a b)
            else if operator == ['&'] && needed then pure ['0']
            else pure a
          more fuel level needed c
      | none => pure a
    | _ => pure a

/-- A value, a question about a text, or a calculation in parentheses. -/
def value : Nat → Bool → Calculation Chars
  | 0, _ => fail []
  | fuel + 1, needed => do
    let a ← next
    match String.ofList a with
    | "(" =>
      let a ← values fuel 6 needed
      closing
      pure a
    | ")" => fail "unexpected ')'".toList
    | "+" => next
    | "match" =>
      let s ← value fuel needed
      let expression ← value fuel needed
      if needed then liftM (described s expression) else pure s
    | "length" =>
      let s ← value fuel needed
      pure (ofNat s.length)
    | "index" =>
      let s ← value fuel needed
      let among ← value fuel needed
      pure (ofNat (positionOf s among))
    | "substr" =>
      let s ← value fuel needed
      let start ← value fuel needed
      let count ← value fuel needed
      pure (partOf s start count)
    | _ => pure a

end

end Calculation

def expr (zero : Chars) (arguments : List Chars) : Task Nat := do
  let arguments := if arguments.head? == some ['-', '-'] then arguments.tail else arguments
  let fail (why : Chars) : Task Nat := do
    complainAs zero why
    pure 2
  if arguments.isEmpty then refuse zero "missing operand".toList 2
  else match (Calculation.values (8 * arguments.length + 8) 6 true).run (zero, arguments) with
    | .error why => fail why
    | .ok (a, _, []) =>
      printLines [a]
      pure (if isNull a then 1 else 0)
    | .ok (_, _, a :: _) => fail ("syntax error: unexpected argument ".toList ++ quoted a)

def uname (zero : Chars) (arguments : List Chars) : Task Nat :=
  withOptions "so" "" zero arguments fun o => do
    match o.operands with
    | a :: _ => refuse zero ("extra operand ".toList ++ quoted a)
    | [] =>
      let kernel := if o.has 's' || !o.has 'o' then ["Linux"] else []
      let system := if o.has 'o' then ["GNU/Linux"] else []
      printLines [(" ".intercalate (kernel ++ system)).toList]
      pure 0

/-- Prints who the user is, and the group of the user. -/
def id (zero : Chars) (arguments : List Chars) : Task Nat :=
  withOptions "gGnru" "" zero arguments fun o => do
    let isOne := o.has 'u' || o.has 'g' || o.has 'G'
    if !isOne && (o.has 'n' || o.has 'r') then
      complainAs zero "cannot print only names or real IDs in default format".toList
      pure 1
    else
      let one := if o.has 'n' then "root" else "0"
      printLines [(if isOne then one else "uid=0(root) gid=0(root) groups=0(root)").toList]
      pure 0

def whoami (zero : Chars) (arguments : List Chars) : Task Nat :=
  withOptions "" "" zero arguments fun o => do
    match o.operands with
    | a :: _ => refuse zero ("extra operand ".toList ++ quoted a)
    | [] =>
      printLines ["root".toList]
      pure 0

end TargetQuery.Script.Utility
