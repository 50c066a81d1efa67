import TargetQuery.Path

/-!
# Command line arguments

A command takes flags, options with a value, operands and subcommands. Arguments are read from left
to right; the first that does not fit ends the reading, and so does a request for help. Each flag
and option may be given once, and a value that begins with a dash must be joined to its option by an
equals sign.
-/

namespace TargetQuery.CommandLine

inductive ValueKind where
  /-- UTF-8, possibly empty. -/
  | text
  /-- Any bytes, but some. -/
  | path
  | choice (names : List String)

def ValueKind.admits : ValueKind → Bytes → Bool
  | .text, value => Utf8.isValid value
  | .path, value => !value.isEmpty
  | .choice names, value => names.any fun name => Utf8.encode name == value

/-- What a command takes. -/
inductive Grammar where
  | mk (flags : List String) (options : List (String × ValueKind)) (operands : List ValueKind)
      (subcommands : List (String × Grammar))

namespace Grammar

def flags : Grammar → List String
  | .mk flags _ _ _ => flags

def options : Grammar → List (String × ValueKind)
  | .mk _ options _ _ => options

/-- The operands, all of which must be given. -/
def operands : Grammar → List ValueKind
  | .mk _ _ operands _ => operands

def subcommands : Grammar → List (String × Grammar)
  | .mk _ _ _ subcommands => subcommands

def subcommand? (g : Grammar) (name : String) : Option Grammar := g.subcommands.lookup name

end Grammar

/-- Why a command line is not carried out. -/
inductive Stop where
  /-- It is wrong. -/
  | usage
  | help
  | version
deriving DecidableEq, Repr

structure Given where
  flags : List String := []
  values : List (String × Bytes) := []
  operands : List Bytes := []

namespace Given

def hasFlag (g : Given) (name : String) : Bool := g.flags.contains name

def value? (g : Given) (name : String) : Option Bytes := g.values.lookup name

def text? (g : Given) (name : String) : Option String := (g.value? name).map Utf8.lossy

def path? (g : Given) (name : String) : Option Path := (g.value? name).map Path.mk

end Given

/-- Flags that may be given by one letter. -/
def shortFlags : List (Char × String) := [('v', "verbose")]

def giveFlag (g : Grammar) (given : Given) (name : String) : Except Stop Given :=
  if g.flags.contains name && !given.hasFlag name then
    .ok { given with flags := name :: given.flags }
  else .error .usage

def giveValue (g : Grammar) (given : Given) (name : String) (value : Bytes) : Except Stop Given :=
  match g.options.lookup name with
  | none => .error .usage
  | some kind =>
    if (given.value? name).isNone && kind.admits value then
      .ok { given with values := given.values ++ [(name, value)] }
    else .error .usage

def giveOperand (g : Grammar) (given : Given) (value : Bytes) : Except Stop Given :=
  match g.operands[given.operands.length]? with
  | none => .error .usage
  | some kind =>
    if kind.admits value then .ok { given with operands := given.operands ++ [value] }
    else .error .usage

def giveLetters (g : Grammar) (isRoot : Bool) (given : Given) : List UInt8 → Except Stop Given
  | [] => .ok given
  | b :: rest => do
    let c := Char.ofNat b.toNat
    if c == 'h' then .error .help
    else if c == 'V' && isRoot then .error .version
    else match shortFlags.lookup c with
      | some name => giveLetters g isRoot (← giveFlag g given name) rest
      | none => .error .usage

inductive Form where
  /-- Two dashes alone: only operands follow. -/
  | separator
  /-- A name behind two dashes, and the value joined to it, if there is one. -/
  | long (name : Bytes) (value : Option Bytes)
  | letters (letters : List UInt8)
  | plain

def Form.of : Bytes → Form
  | Ascii.minus :: Ascii.minus :: [] => .separator
  | Ascii.minus :: Ascii.minus :: rest =>
    let name := rest.takeWhile (· != 0x3D)
    .long name ((rest.drop name.length).tail?)
  | Ascii.minus :: b :: rest => .letters (b :: rest)
  | _ => .plain

/-- Whether an argument can be the value of the option in front of it. -/
def canBeValue (a : Bytes) : Bool :=
  match Form.of a with
  | .plain => true
  | _ => false

/-- The answer to a request for help on a subcommand. -/
def helpOn (g : Grammar) : List Bytes → Stop
  | [] => .help
  | name :: rest =>
    match (Utf8.decode? name).bind g.subcommand? with
    | some inner => helpOn inner rest
    | none =>
      let known := name == Utf8.encode "help" && !g.subcommands.isEmpty
      if known && rest.isEmpty then .help else .usage

def readOperands (g : Grammar) (given : Given) (arguments : List Bytes) : Except Stop Given :=
  arguments.foldlM (giveOperand g) given

/-- Reads arguments up to a subcommand, which is given with the arguments behind it. -/
def readFrom (g : Grammar) (isRoot : Bool) :
    Given → List Bytes → Except Stop (Given × Option (String × List Bytes))
  | given, [] => .ok (given, none)
  | given, a :: rest =>
    match Form.of a with
    | .separator => do .ok (← readOperands g given rest, none)
    | .letters letters => do readFrom g isRoot (← giveLetters g isRoot given letters) rest
    | .long name value =>
      match Utf8.decode? name with
      | none => .error .usage
      | some name =>
        match value with
        | some value => do readFrom g isRoot (← giveValue g given name value) rest
        | none =>
          if name == "help" then .error .help
          else if name == "version" && isRoot then .error .version
          else if (g.options.lookup name).isSome then
            match rest with
            | value :: rest =>
              if canBeValue value then do readFrom g isRoot (← giveValue g given name value) rest
              else .error .usage
            | [] => .error .usage
          else do readFrom g isRoot (← giveFlag g given name) rest
    | .plain =>
      match Utf8.decode? a with
      | some name =>
        if (g.subcommand? name).isSome then .ok (given, some (name, rest))
        else if name == "help" && !g.subcommands.isEmpty then .error (helpOn g rest)
        else do readFrom g isRoot (← giveOperand g given a) rest
      | none => do readFrom g isRoot (← giveOperand g given a) rest

/-- The subcommands on the way to a command, and what has been given on the way and to the command
itself. -/
structure Chosen where
  path : List String := []
  given : List Given := []

namespace Chosen

/-- Whether a flag has been given anywhere on the way. -/
def hasFlag (c : Chosen) (name : String) : Bool := c.given.any (·.hasFlag name)

/-- What has been given to the command itself. -/
def last (c : Chosen) : Given := c.given.getLastD {}

end Chosen

/-- Reads a command line. A command with subcommands needs one, and all operands must be given. The
fuel bounds how deep subcommands are nested. -/
def read (g : Grammar) : Nat → Chosen → List Bytes → Except Stop Chosen
  | 0, _, _ => .error .usage
  | fuel + 1, chosen, arguments => do
    match ← readFrom g chosen.path.isEmpty {} arguments with
    | (given, none) =>
      if g.subcommands.isEmpty && given.operands.length == g.operands.length then
        .ok { chosen with given := chosen.given ++ [given] }
      else .error .usage
    | (given, some (name, rest)) =>
      match g.subcommand? name with
      | none => .error .usage
      | some inner => read inner fuel ⟨chosen.path ++ [name], chosen.given ++ [given]⟩ rest

end TargetQuery.CommandLine
