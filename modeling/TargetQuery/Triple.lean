/-!
# Target triples

A triple such as `x86_64-apple-macosx10.15` names a platform. It is kept exactly as it was given;
what it means is the frontend's business.
-/

namespace TargetQuery

/-- The name of a platform. -/
structure Triple where
  text : String
deriving DecidableEq, Repr, Inhabited

namespace Triple

/-- The architecture: everything before the first dash. -/
def arch (t : Triple) : String := String.ofList (t.text.toList.takeWhile (· != '-'))

instance : ToString Triple := ⟨text⟩

/-- Triples in order of their text, each once. -/
def sortDistinct (triples : List Triple) : List Triple :=
  (triples.mergeSort fun a b => !decide (b.text < a.text)).eraseDups

end Triple

end TargetQuery
