import TargetQuery.Query

/-!
# Settings

Defaults for queries, each of which may be left open. Settings come in layers: what a later layer
gives replaces what an earlier one gave, and what it leaves open does not. Options given with a
query come last.
-/

namespace TargetQuery

/-- One layer of defaults. -/
structure Settings where
  frontend : Option Path := none
  sdk : Option Path := none
  resourceDir : Option Path := none
  target : Option Triple := none
  targetVariant : Option Triple := none
deriving BEq, Inhabited

namespace Settings

/-- Whether the layer gives anything. -/
def hasOverrides (s : Settings) : Bool :=
  s.frontend.isSome || s.sdk.isSome || s.resourceDir.isSome || s.target.isSome
    || s.targetVariant.isSome

/-- A layer with another one on top. -/
def merge (below above : Settings) : Settings where
  frontend := above.frontend <|> below.frontend
  sdk := above.sdk <|> below.sdk
  resourceDir := above.resourceDir <|> below.resourceDir
  target := above.target <|> below.target
  targetVariant := above.targetVariant <|> below.targetVariant

end Settings

/-- What is asked for with a single query. -/
structure Options where
  target : Option Triple := none
  targetVariant : Option Triple := none
  sdk : Option Path := none
  resourceDir : Option Path := none
  inPlace : Bool := false

/-- The query of some options; what they leave open is taken from the settings. -/
def Options.query (o : Options) (s : Settings) : Query where
  target := o.target <|> s.target
  targetVariant := o.targetVariant <|> s.targetVariant
  sdk := (o.sdk <|> s.sdk).map Location.ofPath
  resourceDir := (o.resourceDir <|> s.resourceDir).map Location.ofPath
  inPlace := o.inPlace

end TargetQuery
