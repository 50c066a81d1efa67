import TargetQuery.Script.Field
import TargetQuery.Script.Sum

/-!
# Expansion

Parameters, sums and the output of commands take the places at which a word mentions them. How a
command is run is given by whoever expands; the fuel bounds how deep words are nested.
-/

namespace TargetQuery.Script

structure Manner where
  /-- Into fields, not into one text. -/
  full : Bool := false
  /-- Whether its own text may be cut. -/
  soft : Bool := false

def optionLetters : Chars := "ubaCEVvxsnmiIfe".toList

/-- The value of a parameter, if it is set. The arguments as a whole are none. -/
def Shell.parameter? (s : Shell) (name : Chars) : Option Chars :=
  match name with
  | ['0'] => some s.zero
  | ['#'] => some (ofNat s.arguments.length)
  | ['?'] => some (ofNat s.status)
  | ['$'] => some (ofNat s.mainProcess)
  | ['!'] => s.lastBackground.map ofNat
  | ['-'] => some (optionLetters.filter s.options.contains)
  | name =>
    match natural? name with
    | some n => if n == 0 then some s.zero else s.arguments[n - 1]?
    | none => s.value? name

/-- Whether a parameter stands for the arguments as a whole. -/
def isArguments (name : Chars) : Bool := name == ['@'] || name == ['*']

/-- Quotes around the arguments as a whole are no marks, as there may be no arguments. -/
def withoutArgumentMarks : Word → Word
  | .mark :: .parameter true ['@'] .value :: .mark :: rest =>
    .parameter true ['@'] .value :: withoutArgumentMarks rest
  | p :: rest => p :: withoutArgumentMarks rest
  | [] => []

/-- The home directory of a user; that of the environment, if no user is named. -/
def Shell.homeOf (s : Shell) (user : Chars) : Option Chars :=
  if user.isEmpty then s.value? "HOME".toList
  else if user == "root".toList then some (ofBytes s.world.accountHome.bytes)
  else none

/-- A word with the home directory in place of a tilde in front, and of one behind a colon if it is
the value of a variable. -/
def withHome (s : Shell) (colons : Bool) : Bool → Word → Word
  | true, .plain '~' :: rest =>
    let plain (p : Piece) : Option Char :=
      match p with
      | .plain c => if c == '/' || (colons && c == ':') then none else some c
      | _ => none
    let user := (rest.map plain).takeWhile Option.isSome |>.filterMap id
    let ends := match rest.drop user.length with
      | [] | .plain _ :: _ => true
      | _ => false
    match if ends then s.homeOf user else none with
    | some home => home.map .quoted ++ withHome s colons false (rest.drop user.length)
    | none => .plain '~' :: withHome s colons false rest
  | _, p :: rest =>
    let next := match p with
      | .plain c => colons && c == ':'
      | _ => false
    p :: withHome s colons next rest
  | _, [] => []
termination_by _ w => w.length
decreasing_by all_goals simp [List.length_drop]; try omega

def argumentGlyphs (s : Shell) (m : Manner) (quoted : Bool) (name : Chars)
    (arguments : List Chars) : List Glyph :=
  if m.full && quoted && name == ['@'] then
    [Glyph.cut false].intercalate (arguments.map fun a => .mark :: glyphs true false a)
  else if m.full && !quoted then
    [Glyph.cut true].intercalate (arguments.map (glyphs false true))
  else
    let separator := match s.value? "IFS".toList with
      | none => [' ']
      | some separators => separators.take 1
    glyphs quoted (!quoted) (separator.intercalate arguments)

def notSet (emptyToo : Bool) : Chars :=
  ("parameter not set" ++ if emptyToo then " or null" else "").toList

mutual

def expandPiece (run : Command → Run Chars) : Nat → Manner → Piece → Run (List Glyph)
  | 0, _, _ => pure []
  | fuel + 1, m, p =>
    match p with
    | .plain c => pure [.char c false m.soft]
    | .quoted c => pure [.char c true false]
    | .mark => pure [.mark]
    | .sum quoted expression => do
      let text ← expandText run fuel expression
      let s ← get
      match Sum.evaluate s.parameter? text with
      | .error why => fault why.toList
      | .ok (n, assigned) =>
        assigned.reverse.forM fun a => assign a.1 (toString a.2.toInt).toList
        pure (glyphs quoted (!quoted) (toString n.toInt).toList)
    | .output quoted c => do
      let output ← run c
      pure (glyphs quoted (!quoted) output)
    | .parameter quoted name use => expandParameter run fuel m quoted name use

def expandParameter (run : Command → Run Chars) :
    Nat → Manner → Bool → Chars → Use → Run (List Glyph)
  | 0, _, _, _, _ => pure []
  | fuel + 1, m, quoted, name, use => do
    let s ← get
    let all := isArguments name
    let value? := s.parameter? name
    let isSet := all || value?.isSome
    let shown : List Glyph :=
      if all then argumentGlyphs s m quoted name s.arguments
      else glyphs quoted (!quoted) (value?.getD [])
    let given : Run Unit :=
      if !isSet && !all && s.has 'u' then fault (name ++ ": ".toList ++ notSet false) else pure ()
    match use with
    | .unknown => fault "Bad substitution".toList
    | .value =>
      given
      pure shown
    | .length =>
      given
      let text := if all then textOf (argumentGlyphs s {} quoted ['*'] s.arguments)
        else value?.getD []
      pure (glyphs quoted (!quoted) (ofNat text.length))
    | .trim atEnd longest word =>
      given
      let pattern ← expandWord run fuel {} (withHome s false true word)
      let whole := if all then textOf (argumentGlyphs s {} quoted name s.arguments)
        else value?.getD []
      pure (glyphs quoted (!quoted) (trim atEnd longest (atoms (marksOf pattern)) whole))
    | .otherwise o emptyToo word =>
      let isEmpty := if all then s.arguments.all List.isEmpty else (value?.getD []).isEmpty
      let usable := isSet && !(emptyToo && isEmpty)
      let word := if quoted then word else withHome s false true word
      let replaced : Run (List Glyph) := expandWord run fuel { m with soft := !quoted } word
      match o, usable with
      | .default, true | .assign, true | .fail, true => pure shown
      | .default, false | .alternative, true => replaced
      | .alternative, false => pure []
      | .assign, false =>
        let text ← expandText run fuel word
        assign name text
        pure (glyphs quoted (!quoted) text)
      | .fail, false =>
        let text ← expandText run fuel word
        let why := if word.isEmpty then notSet emptyToo else text
        fault (name ++ ": ".toList ++ why)

def expandWord (run : Command → Run Chars) : Nat → Manner → Word → Run (List Glyph)
  | 0, _, _ => pure []
  | fuel + 1, m, w => do
    let parts ← (withoutArgumentMarks w).mapM (expandPiece run fuel m)
    pure parts.flatten

def expandText (run : Command → Run Chars) : Nat → Word → Run Chars
  | 0, _ => pure []
  | fuel + 1, w => do
    let gs ← expandWord run fuel {} w
    pure (textOf gs)

end

def expandFields (run : Command → Run Chars) (fuel : Nat) (w : Word) : Run (List Chars) := do
  let gs ← expandWord run fuel { full := true } (withHome (← get) false true w)
  let s ← get
  pure ((cutFields s.separators gs).flatMap (filesOf s))

def expandValue (run : Command → Run Chars) (fuel : Nat) (w : Word) : Run Chars := do
  expandText run fuel (withHome (← get) true true w)

def expandName (run : Command → Run Chars) (fuel : Nat) (w : Word) : Run Chars := do
  expandText run fuel (withHome (← get) false true w)

def expandPattern (run : Command → Run Chars) (fuel : Nat) (w : Word) : Run (List Atom) := do
  let gs ← expandWord run fuel {} (withHome (← get) false true w)
  pure (atoms (marksOf gs))

end TargetQuery.Script
