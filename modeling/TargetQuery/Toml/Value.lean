/-!
# TOML values

A document is an ordered list of members. Tables remember how they came to be, because that decides
whether later parts of the document may add to them.
-/

namespace TargetQuery.Toml

/-- How a table came to be. -/
inductive Origin where
  /-- Written between braces, which closes it for good. -/
  | inline
  /-- Named by a header of its own. -/
  | header
  /-- Passed through by the header of another table. -/
  | implied
  /-- Passed through by a dotted key. -/
  | dotted
deriving DecidableEq, Repr

inductive Value where
  | text (s : String)
  | integer (n : Int)
  | float (x : Float)
  | bool (b : Bool)
  /-- A date, a time, or both. -/
  | dateTime (written : String)
  | array (items : List Value)
  | table (origin : Origin) (members : List (String × Value))
  /-- Tables that share one name, each with a header of its own. -/
  | tables (elements : List (List (String × Value)))

/-- The members of a table, in order. -/
abbrev Members := List (String × Value)

namespace Members

def find? (ms : Members) (name : String) : Option Value := ms.lookup name

/-- The members with another value under a name that is there. -/
def replace (ms : Members) (name : String) (v : Value) : Members :=
  ms.map fun m => if m.1 == name then (name, v) else m

def erase (ms : Members) (name : String) : Members := ms.filter fun m => m.1 != name

/-- The members with a new name at the end. A name is defined once. -/
def add (ms : Members) (name : String) (v : Value) : Option Members :=
  if (ms.find? name).isSome then none else some (ms ++ [(name, v)])

/-- Changes the table at the end of a path of keys, which is given with its origin. Tables that are
missing are made. A dotted key does not lead into a table that has a header; nothing leads into a
table between braces; a name shared by several tables leads into the last of them. -/
def update (dotted : Bool) (change : Origin → Members → Option Members) :
    List String → Origin → Members → Option Members
  | [], origin, ms => change origin ms
  | name :: path, _, ms =>
    match ms.find? name with
    | none => do
      let origin := if dotted then .dotted else .implied
      let made ← update dotted change path origin []
      some (ms ++ [(name, .table origin made)])
    | some (.table origin inner) =>
      if origin == .inline || (dotted && origin == .header) then none
      else do
        let changed ← update dotted change path origin inner
        some (ms.replace name (.table origin changed))
    | some (.tables elements) =>
      match elements.getLast? with
      | none => none
      | some last => do
        let changed ← update dotted change path .header last
        some (ms.replace name (.tables (elements.dropLast ++ [changed])))
    | some _ => none

/-- The members with a value under a dotted key. The table that the last part goes into must itself
have been made by dotted keys. -/
def addPair (ms : Members) (keys : List String) (v : Value) : Option Members :=
  match keys.getLast? with
  | none => none
  | some name =>
    let path := keys.dropLast
    let change (origin : Origin) (inner : Members) : Option Members :=
      if !path.isEmpty && origin != .dotted then none else inner.add name v
    update true change path .header ms

end Members

end TargetQuery.Toml
