import TargetQuery.Toml.Grammar

/-!
# TOML documents

The expressions of a document put together. Every table is defined once: by a header, by dotted
keys, or between braces. A header may name a table that others have passed through; it then takes
over what is in it and moves behind its neighbours.
-/

namespace TargetQuery.Toml

/-- A document of which some expressions have been put together. -/
structure Draft where
  /-- The tables that are complete. -/
  root : Members := []
  /-- The name of the table that is being read; empty before the first header. -/
  keys : List String := []
  /-- The table shares its name with others. -/
  isElement : Bool := false
  /-- What has been read of the table. -/
  current : Members := []

namespace Draft

/-- Puts the table that has been read to the others. -/
def close (d : Draft) : Option Members :=
  match d.keys.getLast? with
  | none => some d.current
  | some name =>
    let change (_ : Origin) (parent : Members) : Option Members :=
      if d.isElement then
        match parent.find? name with
        | none => some (parent ++ [(name, .tables [d.current])])
        | some (.tables elements) => some (parent.replace name (.tables (elements ++ [d.current])))
        | some _ => none
      else parent.add name (.table .header d.current)
    d.root.update false change d.keys.dropLast .header

/-- Where a table is to go, taken out of the tables that are there: its members so far, and the
others. A name that has been defined before is refused. -/
def claim (root : Members) (keys : List String) : Option (Members × Members) := do
  let name ← keys.getLast?
  let without (_ : Origin) (parent : Members) : Option Members :=
    match parent.find? name with
    | none => some parent
    | some (.table .implied _) => some (parent.erase name)
    | some _ => none
  let rest ← root.update false without keys.dropLast .header
  some (membersAt keys root, rest)
where
  /-- The members of the table at a path, or none. -/
  membersAt : List String → Members → Members
    | [], ms => ms
    | name :: path, ms =>
      match ms.find? name with
      | some (.table _ inner) => membersAt path inner
      | some (.tables elements) => membersAt path (elements.getLastD [])
      | _ => []

/-- Makes room for one more table under a shared name. -/
def claimElement (root : Members) (keys : List String) : Option Members := do
  let name ← keys.getLast?
  let prepare (_ : Origin) (parent : Members) : Option Members :=
    match parent.find? name with
    | none => some (parent ++ [(name, .tables [])])
    | some (.tables _) => some parent
    | some _ => none
  root.update false prepare keys.dropLast .header

def add (d : Draft) : Expression → Option Draft
  | .pair keys v => do some { d with current := ← d.current.addPair keys v }
  | .header keys => do
    let (current, root) ← claim (← d.close) keys
    some { root, keys, isElement := false, current }
  | .element keys => do
    let root ← claimElement (← d.close) keys
    some { root, keys, isElement := true, current := [] }

end Draft

def document? (text : String) : Option Members := do
  let es ← expressions text.toList
  let d ← es.foldlM Draft.add {}
  d.close

end TargetQuery.Toml
