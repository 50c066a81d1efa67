import TargetQuery.Script.Chars

/-!
# Surroundings of a command

A program may be run in other surroundings than those at hand: variables are taken away and added in
front of the command.
-/

namespace TargetQuery.Script

/-- The words of a text, which quotes and backslashes may hold together. What has been read of a
word comes with the quote that is open. The fuel bounds the length of the text. -/
def wordsOf : Nat → Option Char → Option Chars → Chars → List Chars
  | 0, _, word?, _ | _, _, word?, [] => word?.toList.map List.reverse
  | fuel + 1, quote?, word?, c :: rest =>
    let word := word?.getD []
    match quote?, c with
    | none, '\'' | none, '"' => wordsOf fuel (some c) (some word) rest
    | some '\'', '\'' | some '"', '"' => wordsOf fuel none (some word) rest
    | _, '\\' =>
      match rest with
      | d :: rest => wordsOf fuel quote? (some (d :: word)) rest
      | [] => wordsOf fuel quote? (some word) []
    | none, c =>
      if isSpace c then word?.toList.map List.reverse ++ wordsOf fuel none none rest
      else wordsOf fuel none (some (c :: word)) rest
    | some _, c => wordsOf fuel quote? (some (c :: word)) rest

/-- Arguments of which the first one may hold several. -/
def unfolded (arguments : List Bytes) : List Bytes :=
  let words (text : Chars) : List Bytes := (wordsOf (text.length + 1) none none text).map toBytes
  match arguments.map ofBytes with
  | ['-', 'S'] :: text :: _ => words text ++ arguments.drop 2
  | ('-' :: 'S' :: c :: text) :: _ => words (c :: text) ++ arguments.drop 1
  | _ => arguments

/-- What the command line of `env` asks for: the environment, and the command with its arguments. -/
structure Surroundings where
  environment : List (String × Bytes)
  command : List Bytes := []

def withoutName (environment : List (String × Bytes)) (name : Chars) : List (String × Bytes) :=
  environment.filter fun v => v.1 != String.ofList name

def readAssignments (environment : List (String × Bytes)) : List Bytes → Surroundings
  | [] => { environment }
  | a :: rest =>
    let text := ofBytes a
    let name := text.takeWhile (· != '=')
    if name.length == text.length then { environment, command := a :: rest }
    else
      let key := String.ofList name
      let value := toBytes (text.drop (name.length + 1))
      let replaced := environment.map fun v => if v.1 == key then (key, value) else v
      let environment := if environment.any (·.1 == key) then replaced
        else environment ++ [(key, value)]
      readAssignments environment rest

/-- The environment without a variable that a long option names, if it is that option. -/
def unsetByName? (environment : List (String × Bytes)) (text : Chars) :
    Option (List (String × Bytes)) :=
  let front := "--unset=".toList
  if front.isPrefixOf text then some (withoutName environment (text.drop front.length)) else none

def readSurroundings : List (String × Bytes) → List Bytes → Except Chars Surroundings
  | environment, [] => .ok { environment }
  | environment, a :: rest =>
    let text := ofBytes a
    match text with
    | ['-', '-'] => .ok (readAssignments environment rest)
    | ['-'] | ['-', 'i'] => readSurroundings [] rest
    | ['-', 'u'] =>
      match rest with
      | name :: rest => readSurroundings (withoutName environment (ofBytes name)) rest
      | [] => .error ("option requires an argument -- ".toList ++ Utility.quoted ['u'])
    | ['-', 'S'] => .error ("option requires an argument -- ".toList ++ Utility.quoted ['S'])
    | '-' :: 'u' :: name => readSurroundings (withoutName environment name) rest
    | ['-', 'i', 'u'] =>
      match rest with
      | _ :: rest => readSurroundings [] rest
      | [] => .error ("option requires an argument -- ".toList ++ Utility.quoted ['u'])
    | '-' :: c :: _ =>
      if text == "--ignore-environment".toList then readSurroundings [] rest
      else match unsetByName? environment text with
        | some environment => readSurroundings environment rest
        | none =>
          if c == '-' then .error ("unrecognized option ".toList ++ Utility.quoted text)
          else .error ("invalid option -- ".toList ++ Utility.quoted [c])
    | _ => .ok (readAssignments environment (a :: rest))

end TargetQuery.Script
