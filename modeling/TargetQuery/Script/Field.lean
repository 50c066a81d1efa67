import TargetQuery.Script.Pattern
import TargetQuery.Script.Shell

/-!
# Fields

An expanded word is cut into fields at separators, where it is not quoted; and a field that is a
pattern stands for the files that it describes, if there are any.
-/

namespace TargetQuery.Script

/-- A part of an expanded word. -/
inductive Glyph where
  /-- A character: whether it is quoted, and whether fields may be cut at it. -/
  | char (c : Char) (quoted soft : Bool)
  /-- A quote, which makes a field of nothing. -/
  | mark
  /-- A field ends here; even an empty one, unless the cut is soft. -/
  | cut (soft : Bool)
deriving DecidableEq, Repr

def glyphs (quoted soft : Bool) (s : Chars) : List Glyph := s.map fun c => .char c quoted soft

def textOf (gs : List Glyph) : Chars :=
  gs.flatMap fun
    | .char c _ _ => [c]
    | .mark => []
    | .cut _ => [' ']

def marksOf (gs : List Glyph) : List Mark :=
  gs.flatMap fun
    | .char c quoted _ => [(c, quoted)]
    | .mark => []
    | .cut _ => [(' ', true)]

/-- Glyphs that are being cut into fields. -/
structure Cutting where
  /-- The field that has been begun, its last character first. -/
  begun : Option (List Mark) := none
  /-- A field has just ended at a blank; a separator that follows belongs to the same end. -/
  atBlank : Bool := false
  /-- The fields, the last one first. -/
  fields : List (List Mark) := []

namespace Cutting

def finish (k : Cutting) (atBlank : Bool) : Cutting :=
  { fields := (k.begun.getD []).reverse :: k.fields, atBlank }

def finishBegun (k : Cutting) : Cutting := if k.begun.isSome then k.finish true else k

def extend (k : Cutting) (more : List Mark) : Cutting :=
  { k with begun := some (more ++ k.begun.getD []), atBlank := false }

def step (separators : Chars) (k : Cutting) : Glyph → Cutting
  | .mark => k.extend []
  | .cut true => k.finishBegun
  | .cut false => k.finish false
  | .char c quoted soft =>
    if !soft || !separators.contains c then k.extend [(c, quoted)]
    else if c == ' ' || c == '\t' || c == '\n' then k.finishBegun
    else if k.atBlank && k.begun.isNone then { k with atBlank := false }
    else k.finish false

end Cutting

def cutFields (separators : Chars) (gs : List Glyph) : List (List Mark) :=
  (gs.foldl (Cutting.step separators) {}).finishBegun.fields.reverse

def exactText (marks : List Mark) : Chars :=
  (atoms marks).flatMap fun
    | .exactly c => [c]
    | _ => []

def splitPattern (marks : List Mark) : List (List Mark) :=
  let (last, parts) := marks.foldr (fun m (part, parts) =>
    if m.1 == '/' then ([], part :: parts) else (m :: part, parts)) ([], [])
  last :: parts

/-- The names in a directory, and those of the directory itself and the one above it. -/
def namesIn (w : World) (directory : Chars) : List Chars :=
  let path := if directory.isEmpty then ['.'] else directory
  match w.files.locate w.here (Shell.pathOf path) with
  | .ok (place, .directory) =>
    ['.'] :: ['.', '.'] :: (w.files.below place).filterMap fun p => p.getLast?.map ofBytes
  | _ => []

/-- The paths that the parts of a pattern describe, behind those for the parts in front. Names that
begin with a dot are described only by patterns that do. -/
def matchingFrom (w : World) : List Chars → List (List Mark) → List Chars
  | found, [] => found
  | found, part :: more =>
    let found :=
      if isOpen part then
        let pattern := atoms part
        let dotted := pattern.head? == some (.exactly '.')
        found.flatMap fun front =>
          let names := (namesIn w front).filter fun name =>
            accepts pattern name && (dotted || name.head? != some '.')
          names.map (front ++ ·)
      else found.map (· ++ exactText part)
    if more.isEmpty then found else matchingFrom w (found.map (· ++ ['/'])) more

def sorted (texts : List Chars) : List Chars :=
  texts.mergeSort fun a b => String.ofList a ≤ String.ofList b

/-- The paths that a pattern describes, in order. -/
def matching (w : World) (marks : List Mark) : List Chars :=
  sorted ((matchingFrom w [[]] (splitPattern marks)).filter fun path =>
    w.files.exists? w.here (Shell.pathOf path))

/-- What a field stands for: the files that it describes, or else itself. -/
def filesOf (s : Shell) (marks : List Mark) : List Chars :=
  let text := marks.map (·.1)
  if s.has 'f' || !isOpen marks then [text]
  else match matching s.world marks with
    | [] => [text]
    | paths => paths

end TargetQuery.Script
