import TargetQuery.Triple

/-!
# Target information

What a frontend says about a target: its triples, whether its runtime libraries need an rpath, and
where the runtime support of the compiler lives.
-/

namespace TargetQuery

/-- One target as the frontend sees it. -/
structure Target where
  triple : Triple
  /-- The triple without any version. -/
  unversionedTriple : Triple
  /-- The triple by which modules are named. -/
  moduleTriple : Triple
  /-- The runtime libraries must be found through an rpath in their system location. -/
  librariesRequireRPath : Bool
deriving DecidableEq, Repr

/-- Where the runtime support of the compiler lives. -/
structure RuntimePaths where
  libraries : List String
  imports : List String
  resource : String
deriving DecidableEq, Repr

/-- The answer to a target query. -/
structure TargetInfo where
  target : Target
  /-- Present only when the query named a variant. -/
  variant : Option Target := none
  paths : Option RuntimePaths := none
deriving DecidableEq, Repr

end TargetQuery
