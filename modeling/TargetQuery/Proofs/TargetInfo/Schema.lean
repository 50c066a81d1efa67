import TargetQuery.Proofs.Json.Lookup
import TargetQuery.TargetInfo.Json

/-!
# The schema of target information

What a tree says about a target, said by looking members up by their names. Records may also be
written as lists of their fields.
-/

namespace TargetQuery

open Json

/-- The value is not written as a list. -/
def Json.Tree.NotList (t : Tree) : Prop := ∀ items, t ≠ .list items

def Triple.ofTree? (t : Tree) : Option Triple := Triple.mk <$> t.text?

namespace Target

/-- A target has all its fields exactly once. -/
def ofMembers? (members : MemberList) : Option Target := do
  guard members.named
  let triple ← members.once? "triple" Triple.ofTree?
  let unversionedTriple ← members.once? "unversionedTriple" Triple.ofTree?
  let moduleTriple ← members.once? "moduleTriple" Triple.ofTree?
  let librariesRequireRPath ← members.once? "librariesRequireRPath" Tree.bool?
  pure { triple, unversionedTriple, moduleTriple, librariesRequireRPath }

def ofTree? : Tree → Option Target
  | .object members => ofMembers? members
  | .list [a, b, c, d] => do
    let triple ← Triple.ofTree? a
    let unversionedTriple ← Triple.ofTree? b
    let moduleTriple ← Triple.ofTree? c
    let librariesRequireRPath ← d.bool?
    pure { triple, unversionedTriple, moduleTriple, librariesRequireRPath }
  | _ => none

end Target

namespace RuntimePaths

def texts? (t : Tree) : Option (List String) := t.list? Tree.text?

/-- The paths have all their fields exactly once. -/
def ofMembers? (members : MemberList) : Option RuntimePaths := do
  guard members.named
  let libraries ← members.once? "runtimeLibraryPaths" texts?
  let imports ← members.once? "runtimeLibraryImportPaths" texts?
  let resource ← members.once? "runtimeResourcePath" Tree.text?
  pure { libraries, imports, resource }

def ofTree? : Tree → Option RuntimePaths
  | .object members => ofMembers? members
  | .list [a, b, c] => do
    let libraries ← texts? a
    let imports ← texts? b
    let resource ← c.text?
    pure { libraries, imports, resource }
  | _ => none

end RuntimePaths

namespace TargetInfo

/-- The target must be there exactly once. The variant and the paths may be there once, and may be
null. -/
def ofMembers? (members : MemberList) : Option TargetInfo := do
  guard members.named
  let target ← members.once? "target" Target.ofTree?
  let variant ← members.atMostOnce? "targetVariant" fun t => t.nullable? Target.ofTree?
  let paths ← members.atMostOnce? "paths" fun t => t.nullable? RuntimePaths.ofTree?
  pure { target, variant := variant.join, paths := paths.join }

/-- In a list, the variant and the paths may be left out at the end. -/
def ofTree? : Tree → Option TargetInfo
  | .object members => ofMembers? members
  | .list [a] => do
    let target ← Target.ofTree? a
    pure { target }
  | .list [a, b] => do
    let target ← Target.ofTree? a
    let variant ← b.nullable? Target.ofTree?
    pure { target, variant }
  | .list [a, b, c] => do
    let target ← Target.ofTree? a
    let variant ← b.nullable? Target.ofTree?
    let paths ← c.nullable? RuntimePaths.ofTree?
    pure { target, variant, paths }
  | _ => none

/-- Wherever the schema asks for a record, there is no list. -/
def ObjectsOnly (t : Tree) : Prop :=
  t.NotList ∧ ∀ members, t = .object members →
    ∀ name ∈ ["target", "targetVariant", "paths"], ∀ value ∈ MemberList.under name members,
      value.NotList

end TargetInfo

end TargetQuery
