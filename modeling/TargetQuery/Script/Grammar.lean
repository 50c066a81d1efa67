import TargetQuery.Script.Source

/-!
# The grammar of scripts

Characters become tokens and tokens become commands. A script is read one line of commands at a
time, so that what stands in front of a mistake has been done before it is found. The fuel of the
readers bounds how much is read; a reader that uses it up has found a mistake.
-/

namespace TargetQuery.Script

open Reading

/-- Where the pieces of a word are read. -/
inductive Context where
  | bare
  | double
  /-- Behind the operator of a parameter between braces. -/
  | braces (quoted : Bool)
  /-- Within a sum, with the number of parentheses that are open. -/
  | sum (opened : Nat)
  | document
deriving DecidableEq

namespace Context

/-- Whether text is taken as it is, apart from what is to be replaced. -/
def quotes : Context → Bool
  | .bare => false
  | .braces quoted => quoted
  | .double | .sum _ | .document => true

/-- Characters that end a word without being part of it. -/
def isOver (context : Context) (c : Char) : Bool :=
  context = .bare && " \t\n;&|<>()".toList.contains c

/-- Whether a backslash takes away the meaning of a character. -/
def escapes (context : Context) (c : Char) : Bool :=
  !context.quotes || c == '\\' || c == '$' || c == '`' || (c == '"' && context ≠ .document)
    || (c == '\x7d' && context = .braces true)

def literal (context : Context) (c : Char) : Piece :=
  if context.quotes then .quoted c else .plain c

def finish (context : Context) (done : List Piece) : Reading Word :=
  match context with
  | .bare | .document => pure done.reverse
  | .double | .braces true => fail "Unterminated quoted string"
  | .braces false => fail "Missing '\x7d'"
  | .sum _ => fail "Missing '))'"

end Context

def isSpecialParameter (c : Char) : Bool := c.isDigit || "!#$*-?@".toList.contains c

/-- Words with a meaning where a command may begin. -/
def keywords : List String :=
  ["!", "case", "do", "done", "elif", "else", "esac", "fi", "for", "if", "in", "then", "until",
    "while", "\x7b", "\x7d"]

def keyword? (w : Word) : Option String := do
  let s := String.ofList (← plainText? w)
  if keywords.contains s then some s else none

/-- The word that a token is written as; what is no word counts as an empty one. -/
def Token.asWord : Token → Word
  | .word w => w
  | .keyword s => s.toList.map .plain
  | _ => []

/-- What may stand where a token is read. -/
structure Wants where
  /-- Line ends are passed over. -/
  newlines : Bool := false
  keywords : Bool := false
  aliases : Bool := false

def commandStart : Wants := { newlines := true, keywords := true, aliases := true }

def commandEnd : Wants := { keywords := true, aliases := true }

def endsList : Token → Bool
  | .done => true
  | .operator s => s == ")" || s == ";;"
  | .keyword s => ["do", "done", "elif", "else", "esac", "fi", "then", "\x7d"].contains s
  | _ => false

def push (t : Token) : Reading Unit := modify fun s => { s with pushed := some t }

/-- The name of a parameter between braces, and whether its length is meant. -/
def bracedName : Reading (Chars × Bool) := do
  let name (c : Char) : Reading Chars :=
    if c.isDigit then takeKind Char.isDigit else takeKind isNameChar
  match ← peek with
  | none => pure ([], false)
  | some '#' =>
    let _ ← take
    match ← peek with
    | none => pure (['#'], false)
    | some c =>
      if isNameChar c then pure (← name c, true)
      else if isSpecialParameter c && (← get).rest[1]? == some '\x7d' then
        let _ ← take
        pure ([c], true)
      else pure (['#'], false)
  | some c =>
    if isNameChar c then pure (← name c, false)
    else if isSpecialParameter c then
      let _ ← take
      pure ([c], false)
    else pure ([], false)

/-- What is done with a parameter that is not set, by the character that says so. -/
def otherwise? : Char → Option Otherwise
  | '-' => some .default
  | '+' => some .alternative
  | '=' => some .assign
  | '?' => some .fail
  | _ => none

def redirectionOperator (c : Char) : Reading String := do
  let _ ← take
  if c == '>' then
    if ← takeIf '>' then pure ">>"
    else if ← takeIf '|' then pure ">|"
    else if ← takeIf '&' then pure ">&"
    else pure ">"
  else if ← takeIf '<' then
    if ← takeIf '-' then pure "<<-" else pure "<<"
  else if ← takeIf '&' then pure "<&"
  else if ← takeIf '>' then pure "<>"
  else pure "<"

def redirectionOf (stream? : Option Nat) (operator : String) (w : Word) : Redirection :=
  match operator with
  | ">" => .file (stream?.getD 1) .write w
  | ">|" => .file (stream?.getD 1) .overwrite w
  | ">>" => .file (stream?.getD 1) .append w
  | ">&" => .duplicate (stream?.getD 1) w
  | "<&" => .duplicate (stream?.getD 0) w
  | "<>" => .file (stream?.getD 0) .readWrite w
  | _ => .file (stream?.getD 0) .read w

def andThen : Option Command → Command → Command
  | none, c => c
  | some b, c => .sequence b c

/-- Special commands of the shell, which no function may replace. -/
def isSpecial (name : Chars) : Bool :=
  [".", ":", "break", "continue", "eval", "exec", "exit", "export", "local", "readonly", "return",
    "set", "shift", "times", "trap", "unset"].contains (String.ofList name)

mutual

def pieces : Nat → Context → List Piece → Reading Word
  | 0, _, _ => fail "word too long"
  | fuel + 1, context, done => do
    match ← peek with
    | none => context.finish done
    | some c =>
      if context.isOver c then pure done.reverse
      else
        let _ ← take
        match context, c with
        | .double, '"' | .braces _, '\x7d' => pure done.reverse
        | .sum (n + 1), ')' => pieces fuel (.sum n) (.quoted c :: done)
        | .sum 0, ')' =>
          if ← takeIf ')' then pure done.reverse
          else pieces fuel context (.quoted c :: done)
        | .sum n, '(' => pieces fuel (.sum (n + 1)) (.quoted c :: done)
        | _, '\\' =>
          match ← take with
          | none => pieces fuel context (.quoted c :: done)
          | some d =>
            if context.escapes d then pieces fuel context (.quoted d :: done)
            else pieces fuel context (.quoted d :: .quoted c :: done)
        | _, '$' =>
          let piece ← dollar fuel context
          pieces fuel context (piece :: done)
        | _, '`' =>
          let piece ← backquoted fuel context.quotes
          pieces fuel context (piece :: done)
        | .document, '"' => pieces fuel context (.quoted c :: done)
        | .braces true, '"' | .sum _, '"' => pieces fuel context done
        | _, '"' =>
          let inside ← pieces fuel .double []
          pieces fuel context (.mark :: inside.reverse ++ .mark :: done)
        | _, '\'' =>
          if context.quotes then pieces fuel context (.quoted c :: done)
          else
            let inside ← takeUpTo '\'' "Unterminated quoted string"
            pieces fuel context (.mark :: (inside.map .quoted).reverse ++ .mark :: done)
        | _, _ => pieces fuel context (context.literal c :: done)

def dollar : Nat → Context → Reading Piece
  | 0, _ => fail "word too long"
  | fuel + 1, context => do
    let quoted := context.quotes
    match ← peek with
    | none => pure (context.literal '$')
    | some '(' =>
      let _ ← take
      if ← takeIf '(' then pure (.sum quoted (← pieces fuel (.sum 0) []))
      else pure (.output quoted (← substitution fuel))
    | some '\x7b' =>
      let _ ← take
      braced fuel quoted
    | some c =>
      if isNameStart c then pure (.parameter quoted (← takeKind isNameChar) .value)
      else if isSpecialParameter c then
        let _ ← take
        pure (.parameter quoted [c] .value)
      else pure (context.literal '$')

def braced : Nat → Bool → Reading Piece
  | 0, _ => fail "word too long"
  | fuel + 1, quoted => do
    let (name, isLength) ← bracedName
    let word (quoted : Bool) : Reading Word := pieces fuel (.braces quoted) []
    let unknown : Reading Piece := do
      let _ ← word quoted
      pure (.parameter quoted name .unknown)
    if name.isEmpty then unknown
    else if isLength then
      let _ ← word quoted
      pure (.parameter quoted name .length)
    else match ← peek with
      | none => unknown
      | some c =>
        let { line, .. } ← get
        let _ ← take
        modify fun s => { s with line }
        if c == '\x7d' then pure (.parameter quoted name .value)
        else if c == '#' || c == '%' then
          let longest ← takeIf c
          pure (.parameter quoted name (.trim (c == '%') longest (← word false)))
        else
          let emptyToo := c == ':'
          let operator ← if emptyToo then peek else pure (some c)
          match operator.bind otherwise? with
          | some o =>
            if emptyToo then
              let _ ← take
            pure (.parameter quoted name (.otherwise o emptyToo (← word quoted)))
          | none =>
            if emptyToo && operator == some '\x7d' then
              let _ ← take
              pure (.parameter quoted name .value)
            else unknown

def substitution : Nat → Reading Command
  | 0 => fail "word too long"
  | fuel + 1 => do
    let awaited := (← get).awaited
    modify fun s => { s with awaited := [] }
    let c ← list fuel false true none
    match ← token fuel {} with
    | .operator ")" =>
      modify fun s => { s with awaited }
      pure c
    | t => unexpected t (some "\")\"")

def backquoted : Nat → Bool → Reading Piece
  | 0, _ => fail "word too long"
  | fuel + 1, quoted => do
    let text ← takeBackquoted quoted ((← get).rest.length + 1) []
    let outer ← get
    set { outer with rest := text, line := 1, awaited := [], pushed := none }
    let c ← list fuel false true none
    match ← token fuel {} with
    | .done =>
      let { rest, line, awaited, .. } := outer
      modify fun s => { s with rest, line, awaited, pushed := none }
      pure (.output quoted c)
    | t => unexpected t (some "end of file")

def freshToken : Nat → Reading Token
  | 0 => fail "word too long"
  | fuel + 1 => do
    skipBlanks ((← get).rest.length + 1)
    let twice (c : Char) : Reading Token := do
      let _ ← take
      if ← takeIf c then pure (.operator (String.ofList [c, c]))
      else pure (.operator (String.ofList [c]))
    match ← peek with
    | none => pure .done
    | some '\n' =>
      let _ ← take
      pure .newline
    | some c =>
      if c == '&' || c == '|' || c == ';' then twice c
      else if c == '(' || c == ')' then
        let _ ← take
        pure (.operator (String.ofList [c]))
      else if c == '<' || c == '>' then pure (.redirection none (← redirectionOperator c))
      else
        let w ← pieces fuel .bare []
        let next ← peek
        match w, next with
        | [.plain d], some e =>
          if d.isDigit && (e == '<' || e == '>') then
            pure (.redirection (some (d.toNat - 48)) (← redirectionOperator e))
          else pure (.word w)
        | _, _ => pure (.word w)

def token : Nat → Wants → Reading Token
  | 0, _ => fail "word too long"
  | fuel + 1, wants => do
    let t ← match (← get).pushed with
      | some t => do
        modify fun s => { s with pushed := none }
        pure t
      | none => freshToken fuel
    match t with
    | .newline =>
      if wants.newlines then
        takeDocuments fuel
        token fuel wants
      else pure t
    | .word w =>
      match if wants.keywords then keyword? w else none with
      | some k => pure (.keyword k)
      | none =>
        let s ← get
        let size := s.rest.length
        let name := (plainText? w).getD []
        let isBusy := s.busy.any fun b => b.1 == name && b.2 < size
        let isBehindBlank := s.reopened.any (size < ·)
        let looksUp := (wants.aliases || isBehindBlank) && !isBusy
        let reopened := if isBehindBlank then none else s.reopened
        match if looksUp then s.aliases.lookup name else none with
        | some value =>
          set { s with
            rest := value ++ s.rest, busy := (name, size) :: s.busy
            reopened := if value.getLast?.any isBlank then some size else reopened }
          token fuel wants
        | none =>
          set { s with reopened }
          pure t
    | _ => pure t

def takeDocuments : Nat → Reading Unit
  | 0 => fail "word too long"
  | fuel + 1 => do
    match (← get).awaited with
    | [] => pure ()
    | a :: more =>
      let (body, line) ← takeDocument a
      let word ← if a.literal then pure (body.map .quoted)
        else
          let outer ← get
          set { outer with rest := body, line, awaited := [] }
          let word ← pieces fuel .document []
          modify fun s => { s with rest := outer.rest, line := outer.line }
          pure word
      modify fun s =>
        { s with awaited := more, documents := (a.number, word) :: s.documents }
      takeDocuments fuel

def redirection : Nat → Option Nat → String → Reading Redirection
  | 0, _, _ => fail "word too long"
  | fuel + 1, stream?, operator => do
    match ← token fuel {} with
    | .word w =>
      if operator == "<<" || operator == "<<-" then
        let s ← get
        let a : Awaited := ⟨s.nextDocument, literalText w, isQuoted w, operator == "<<-"⟩
        set { s with awaited := s.awaited ++ [a], nextDocument := s.nextDocument + 1 }
        pure (.document (stream?.getD 0) a.number)
      else pure (redirectionOf stream? operator w)
    | t => unexpected t none

def redirections : Nat → List Redirection → Reading (List Redirection)
  | 0, _ => fail "word too long"
  | fuel + 1, done => do
    match ← token fuel commandEnd with
    | .redirection stream? operator =>
      let r ← redirection fuel stream? operator
      redirections fuel (r :: done)
    | t =>
      push t
      pure done.reverse

/-- Commands up to the end of a line, or up to something that ends a list, behind those that have
been read. A list need not hold a command if `mayEnd` is set. -/
def list : Nat → Bool → Bool → Option Command → Reading Command
  | 0, _, _, _ => fail "word too long"
  | fuel + 1, oneLine, mayEnd, done => do
    let t ← token fuel { commandStart with newlines := !oneLine }
    match t with
    | .newline =>
      takeDocuments fuel
      pure (done.getD .nothing)
    | .done =>
      takeDocuments fuel
      push t
      pure (done.getD .nothing)
    | _ =>
      push t
      if !oneLine && mayEnd && endsList t then pure (done.getD .nothing)
      else
        let c ← andOr fuel
        let t ← token fuel {}
        match t with
        | .done =>
          takeDocuments fuel
          push t
          pure (andThen done c)
        | .newline =>
          push t
          list fuel oneLine true (some (andThen done c))
        | .operator "&" => list fuel oneLine true (some (andThen done (inBackground c)))
        | .operator ";" => list fuel oneLine true (some (andThen done c))
        | _ =>
          if oneLine then unexpected t none
          else
            push t
            pure (andThen done c)
where
  /-- A command that is not waited for. -/
  inBackground : Command → Command
    | .redirected line c rs => .background line c rs
    | c => .background 0 c []

def andOr : Nat → Reading Command
  | 0 => fail "word too long"
  | fuel + 1 => do
    let c ← pipeline fuel
    moreAndOr fuel c

def moreAndOr : Nat → Command → Reading Command
  | 0, _ => fail "word too long"
  | fuel + 1, c => do
    match ← token fuel {} with
    | .operator "&&" =>
      let d ← pipeline fuel
      moreAndOr fuel (.both c d)
    | .operator "||" =>
      let d ← pipeline fuel
      moreAndOr fuel (.either c d)
    | t =>
      push t
      pure c

def pipeline : Nat → Reading Command
  | 0 => fail "word too long"
  | fuel + 1 => do
    let t ← token fuel commandStart
    let (negated, wants) ← match t with
      | .keyword "!" => pure (true, commandEnd)
      | t => do
        push t
        pure (false, commandStart)
    let c ← command fuel wants
    let cs ← morePipeline fuel [c]
    let c := match cs with
      | [c] => c
      | cs => .pipeline cs
    pure (if negated then .negated c else c)

def morePipeline : Nat → List Command → Reading (List Command)
  | 0, _ => fail "word too long"
  | fuel + 1, cs => do
    match ← token fuel {} with
    | .operator "|" =>
      let c ← command fuel commandStart
      morePipeline fuel (cs ++ [c])
    | t =>
      push t
      pure cs

def expect : Nat → Wants → String → Reading Unit
  | 0, _, _ => fail "word too long"
  | fuel + 1, wants, wanted => do
    let t ← token fuel wants
    let found := match t with
      | .keyword s | .operator s => s == wanted
      | _ => false
    if found then pure () else unexpected t (some ("\"" ++ wanted ++ "\""))

def command : Nat → Wants → Reading Command
  | 0, _ => fail "word too long"
  | fuel + 1, wants => do
    let t ← token fuel wants
    let line := (← get).line
    let body : Reading Command := list fuel false false none
    let finished (c : Command) : Reading Command := do
      let rs ← redirections fuel []
      pure (if rs.isEmpty then c else .redirected line c rs)
    match t with
    | .keyword "if" =>
      let c ← choice fuel
      finished c
    | .keyword "while" | .keyword "until" =>
      let condition ← body
      expect fuel {} "do"
      let c ← body
      expect fuel {} "done"
      let wanted := match t with
        | .keyword s => s == "while"
        | _ => true
      finished (.loop wanted condition c)
    | .keyword "for" =>
      let c ← each fuel line
      finished c
    | .keyword "case" =>
      match ← token fuel {} with
      | .word w =>
        expect fuel commandStart "in"
        let branches ← branches fuel []
        finished (.select line w branches)
      | t => unexpected t (some "word")
    | .operator "(" =>
      let c ← body
      expect fuel {} ")"
      let rs ← redirections fuel []
      pure (.subshell line c rs)
    | .keyword "\x7b" =>
      let c ← body
      expect fuel {} "\x7d"
      finished c
    | .word _ | .redirection .. =>
      push t
      simple fuel line true [] [] []
    | _ => unexpected t none

/-- A conditional behind its first keyword, up to its end. -/
def choice : Nat → Reading Command
  | 0 => fail "word too long"
  | fuel + 1 => do
    let condition ← list fuel false false none
    expect fuel {} "then"
    let yes ← list fuel false false none
    match ← token fuel {} with
    | .keyword "elif" => pure (.choice condition yes (← choice fuel))
    | .keyword "else" =>
      let no ← list fuel false false none
      expect fuel {} "fi"
      pure (.choice condition yes no)
    | t =>
      push t
      expect fuel {} "fi"
      pure (.choice condition yes .nothing)

def each : Nat → Nat → Reading Command
  | 0, _ => fail "word too long"
  | fuel + 1, line => do
    let name := match ← token fuel {} with
      | .word w => (plainText? w).getD []
      | _ => []
    if !isName name then fail "Bad for loop variable"
    else
      let t ← token fuel commandStart
      let words ← match t with
        | .keyword "in" => eachWords fuel []
        | t => do
          match t with
          | .operator ";" => pure ()
          | t => push t
          pure [[.mark, .parameter true ['@'] .value, .mark]]
      expect fuel commandStart "do"
      let body ← list fuel false false none
      expect fuel {} "done"
      pure (.each line name words body)

def eachWords : Nat → List Word → Reading (List Word)
  | 0, _ => fail "word too long"
  | fuel + 1, done => do
    match ← token fuel {} with
    | .word w => eachWords fuel (w :: done)
    | .newline | .operator ";" => pure done.reverse
    | t => unexpected t none

def branches : Nat → List Branch → Reading (List Branch)
  | 0, _ => fail "word too long"
  | fuel + 1, done => do
    let wants : Wants := { newlines := true, keywords := true }
    match ← token fuel wants with
    | .keyword "esac" => pure done.reverse
    | t =>
      let first ← match t with
        | .operator "(" => token fuel {}
        | t => pure t
      let patterns ← patterns fuel first []
      let body ← list fuel false true none
      let branch := Branch.mk patterns body
      match ← token fuel wants with
      | .operator ";;" => branches fuel (branch :: done)
      | .keyword "esac" => pure (branch :: done).reverse
      | t => unexpected t (some "\";;\"")

def patterns : Nat → Token → List Word → Reading (List Word)
  | 0, _, _ => fail "word too long"
  | fuel + 1, t, done => do
    match ← token fuel {} with
    | .operator "|" => patterns fuel (← token fuel {}) (t.asWord :: done)
    | .operator ")" => pure (t.asWord :: done).reverse
    | t => unexpected t (some "\")\"")

/-- A simple command or the definition of a function. The flag says whether assignments may still
come. -/
def simple : Nat → Nat → Bool → List Word → List Word → List Redirection → Reading Command
  | 0, _, _, _, _, _ => fail "word too long"
  | fuel + 1, line, atStart, assignments, words, rs => do
    let t ← token fuel { aliases := atStart }
    match t with
    | .word w =>
      if atStart && (assignment? w).isSome then simple fuel line true (w :: assignments) words rs
      else simple fuel line false assignments (w :: words) rs
    | .redirection stream? operator =>
      let r ← redirection fuel stream? operator
      simple fuel line atStart assignments words (r :: rs)
    | .operator "(" =>
      match words, assignments, rs with
      | [w], [], [] =>
        expect fuel {} ")"
        let name := (plainText? w).getD []
        if !isName name || isSpecial name then fail "Bad function name"
        else
          let start := (← get).line
          let body ← command fuel commandStart
          pure (.define start name body)
      | _, _, _ => unexpected t none
    | _ =>
      push t
      pure (.simple line assignments.reverse words.reverse rs.reverse)

end

def nextCommand (s : Source) : Except Mistake (Command × Source) :=
  let fuel := 16 * (s.rest.length + sumOf (s.aliases.map fun a => a.2.length)) + 64
  (list fuel true false none).run { s with pushed := none }

end TargetQuery.Script
