import TypedApi.Text.Blank

/-! # Commands of a script

A script is a list of commands. A command is a list of words, in which parameters stand for the
arguments of the script, with the places that its two texts go to.
-/
namespace TypedApi.Script

/-- What a parameter stands for. -/
inductive Parameter where
  /-- The argument with this number; the first one has number 1. -/
  | argument (n : Nat)
  /-- All arguments, each a word of its own. -/
  | arguments
  /-- All arguments in one word. -/
  | joinedArguments
  | argumentCount
  /-- The status of the command before. -/
  | lastStatus
deriving DecidableEq, Repr

/-- A piece of a word. -/
inductive Piece where
  | text (s : String)
  | parameter (p : Parameter) (quoted : Bool)
deriving DecidableEq, Repr

/-- A word before its parameters are known. -/
abbrev Word := List Piece

/-- Whether a command is carried out, given the status of the command before. -/
inductive Condition where
  | always
  | onSuccess
  | onFailure
deriving DecidableEq, Repr

/-- Where one of the two texts of a command goes; `stream` is 1 for the output and 2 for the
errors. -/
inductive Redirection where
  | toFile (stream : Nat) (appending : Bool) (target : Word)
  | toStream (stream target : Nat)
deriving DecidableEq, Repr

/-- A command of a script. -/
structure Command where
  condition : Condition
  words : List Word
  redirections : List Redirection
deriving DecidableEq, Repr

/-! ## Reading words -/

/-- The parameter after a dollar sign, and what follows it. -/
def parameter? (cs : List Char) : Option (Parameter × List Char) :=
  match cs with
  | '@' :: rest => some (.arguments, rest)
  | '*' :: rest => some (.joinedArguments, rest)
  | '#' :: rest => some (.argumentCount, rest)
  | '?' :: rest => some (.lastStatus, rest)
  | '\x7b' :: d :: '\x7d' :: rest =>
    if d.isDigit then some (.argument (d.toNat - '0'.toNat), rest)
    else if d == '@' then some (.arguments, rest)
    else if d == '*' then some (.joinedArguments, rest)
    else none
  | d :: rest => if d.isDigit then some (.argument (d.toNat - '0'.toNat), rest) else none
  | [] => none

/-- A piece of one character. -/
def plain (c : Char) : Piece := .text (.singleton c)

/-- Reads a word up to the closing double quote, and what follows it. -/
def quotedPieces : Nat → List Char → Word × List Char
  | 0, cs => ([], cs)
  | _, [] => ([], [])
  | n + 1, c :: rest =>
    if c == '"' then ([], rest)
    else
      let (piece, rest) : Word × List Char :=
        match c, rest with
        | '\\', '\n' :: rest => ([], rest)
        | '\\', d :: rest =>
          if d == '"' || d == '\\' || d == '$' || d == '\x60' then ([plain d], rest)
          else ([plain '\\', plain d], rest)
        | '$', rest =>
          match parameter? rest with
          | some (p, rest) => ([.parameter p true], rest)
          | none => ([plain '$'], rest)
        | c, rest => ([plain c], rest)
      let (pieces, rest) := quotedPieces n rest
      (piece ++ pieces, rest)

/-- A character that ends a word. -/
def endsWord (c : Char) : Bool :=
  c == ' ' || c == '\t' || c == '\n' || c == ';' || c == '&' || c == '|' || c == '>' || c == '<'

/-- Reads a word, and what follows it. -/
def wordPieces : Nat → List Char → Word × List Char
  | 0, cs => ([], cs)
  | _, [] => ([], [])
  | n + 1, c :: rest =>
    if endsWord c then ([], c :: rest)
    else
      let (piece, rest) : Word × List Char :=
        match c, rest with
        | '\'', rest =>
          let inside := rest.takeWhile (· != '\'')
          ([.text (.ofList inside)], rest.drop (inside.length + 1))
        | '"', rest =>
          let (pieces, rest) := quotedPieces (rest.length + 1) rest
          (.text "" :: pieces, rest)
        | '\\', '\n' :: rest => ([], rest)
        | '\\', d :: rest => ([plain d], rest)
        | '$', rest =>
          match parameter? rest with
          | some (p, rest) => ([.parameter p false], rest)
          | none => ([plain '$'], rest)
        | c, rest => ([plain c], rest)
      let (pieces, rest) := wordPieces n rest
      (piece ++ pieces, rest)

/-! ## Reading commands -/

/-- Reads where a text goes, after the number of the stream and the arrow. -/
def redirection (stream : Nat) (cs : List Char) : Redirection × List Char :=
  let target (appending : Bool) (cs : List Char) : Redirection × List Char :=
    let cs := cs.dropWhile fun c => c == ' ' || c == '\t'
    let (word, rest) := wordPieces (cs.length + 1) cs
    (.toFile stream appending word, rest)
  match cs with
  | '>' :: rest => target true rest
  | '&' :: '1' :: rest => (.toStream stream 1, rest)
  | '&' :: '2' :: rest => (.toStream stream 2, rest)
  | rest => target false rest

/-- Reads the commands of a script, of which `command` is the one begun last. -/
def commandsFrom (command : Command) : Nat → List Char → List Command
  | 0, _ => [command]
  | _, [] => [command]
  | n + 1, c :: rest =>
    let next (condition : Condition) (rest : List Char) : List Command :=
      command :: commandsFrom ⟨condition, [], []⟩ n rest
    let redirected (stream : Nat) (rest : List Char) : List Command :=
      let (r, rest) := redirection stream rest
      commandsFrom { command with redirections := command.redirections ++ [r] } n rest
    match c, rest with
    | ' ', rest => commandsFrom command n rest
    | '\t', rest => commandsFrom command n rest
    | '#', rest => commandsFrom command n (rest.dropWhile (· != '\n'))
    | '&', '&' :: rest => next .onSuccess rest
    | '|', '|' :: rest => next .onFailure rest
    | '>', rest => redirected 1 rest
    | '1', '>' :: rest => redirected 1 rest
    | '2', '>' :: rest => redirected 2 rest
    | c, rest =>
      if endsWord c then next .always rest
      else
        let (word, rest) := wordPieces (rest.length + 2) (c :: rest)
        commandsFrom { command with words := command.words ++ [word] } n rest

/-- The commands of a script. -/
def commands (script : String) : List Command :=
  let cs := script.toList
  (commandsFrom ⟨.always, [], []⟩ (cs.length + 1) cs).filter fun c =>
    !(c.words.isEmpty && c.redirections.isEmpty)

end TypedApi.Script
