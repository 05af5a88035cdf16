import TypedApi.Number.Numeral
import TypedApi.Program.Basic
import TypedApi.Program.Command

/-! # Scripts as programs

What the commands of a script do: they print, they write to files, and they end the script with a
status. A file is a program if it may be executed and begins with the line of the shell.
-/
namespace TypedApi.Script

/-- The state of a script. -/
structure State where
  files : FileSystem
  arguments : List String
  status : Nat
  output : String
  errors : String
  /-- Whether the script has ended. -/
  ended : Bool

/-- Where a text goes. -/
inductive Target where
  | out
  | err
  | file (p : Path)
deriving DecidableEq, Repr

/-! ## Words -/

/-- The texts that a parameter stands for. -/
def parameterTexts (s : State) : Parameter → List String
  | .argument n => [if n == 0 then "" else s.arguments.getD (n - 1) ""]
  | .arguments => s.arguments
  | .joinedArguments => [" ".intercalate s.arguments]
  | .argumentCount => [toString s.arguments.length]
  | .lastStatus => [toString s.status]

/-- Adds texts to a list of words: the first one goes on with the last word. -/
def glue (words texts : List String) : List String :=
  match words.getLast?, texts with
  | some last, text :: rest => words.dropLast ++ (last ++ text) :: rest
  | _, texts => words ++ texts

/-- The words that a word becomes when its parameters are replaced. An unquoted parameter without
text adds nothing. -/
def expand (s : State) (word : Word) : List String :=
  word.foldl (fun words piece =>
    match piece with
    | .text t => glue words [t]
    | .parameter p quoted =>
      glue words ((parameterTexts s p).filter fun t => quoted || t != "")) []

/-! ## Printing -/

/-- The character that a backslash with a letter stands for. -/
def escaped? (c : Char) : Option Char :=
  match c with
  | 'a' => some (Char.ofNat 7)
  | 'b' => some (Char.ofNat 8)
  | 'f' => some (Char.ofNat 12)
  | 'n' => some '\n'
  | 'r' => some '\r'
  | 't' => some '\t'
  | 'v' => some (Char.ofNat 11)
  | '\\' => some '\\'
  | _ => none

/-- A text with its escapes replaced, and whether one of them ended it. -/
def unescape : List Char → List Char × Bool
  | '\\' :: 'c' :: _ => ([], true)
  | '\\' :: c :: rest =>
    let (later, ended) := unescape rest
    match escaped? c with
    | some d => (d :: later, ended)
    | none => ('\\' :: c :: later, ended)
  | c :: rest =>
    let (later, ended) := unescape rest
    (c :: later, ended)
  | [] => ([], false)

/-- The line that prints words. -/
def echoText (words : List String) : String :=
  let (words, lineEnd) := match words with
    | "-n" :: rest => (rest, "")
    | words => (words, "\n")
  let (text, ended) := unescape (" ".intercalate words).toList
  .ofList text ++ (if ended then "" else lineEnd)

/-- A format with its places filled by words, and the words left over. -/
def filled : List Char → List String → List Char × List String
  | '%' :: '%' :: rest, words =>
    let (later, words) := filled rest words
    ('%' :: later, words)
  | '%' :: _ :: rest, words =>
    let (later, left) := filled rest words.tail
    (words.headD "" |>.toList |> (· ++ later), left)
  | c :: rest, words =>
    let (later, words) := filled rest words
    (c :: later, words)
  | [], words => ([], words)

/-- The text of a format that is used until no word is left. -/
def formatText (format : List Char) : Nat → List String → List Char
  | 0, _ => []
  | n + 1, words =>
    let (text, left) := filled format words
    if left.isEmpty || left.length == words.length then text
    else text ++ formatText format n left

/-! ## Commands -/

/-- A state with a text sent to a target. -/
def send (s : State) (target : Target) (text : String) : State :=
  match target with
  | .out => { s with output := s.output ++ text }
  | .err => { s with errors := s.errors ++ text }
  | .file p =>
    let data := match s.files.readData p with
      | .ok data => data
      | .error _ => .empty
    match s.files.writeData p (data ++ text.toUTF8) with
    | .ok files => { s with files := files }
    | .error _ => s

/-- The targets of the two texts after a redirection. A file that is not appended to is emptied. -/
def redirect (state : Option (State × Target × Target)) (r : Redirection) :
    Option (State × Target × Target) := do
  let (s, output, errors) ← state
  let aimed (s : State) (stream : Nat) (target : Target) : State × Target × Target :=
    if stream == 2 then (s, output, target) else (s, target, errors)
  match r with
  | .toStream stream target => some (aimed s stream (if target == 2 then errors else output))
  | .toFile stream appending target =>
    let p := Path.ofText (" ".intercalate (expand s target))
    let data := match s.files.readData p with
      | .ok data => if appending then data else .empty
      | .error _ => .empty
    match s.files.writeData p data with
    | .ok files => some (aimed { s with files := files } stream (.file p))
    | .error _ => none

/-- The status that a word names: a byte, or the status of a misuse if the word is no number. -/
def statusOf (word : String) : Nat :=
  let cs := word.toList
  if cs.isEmpty || !cs.all Char.isDigit then 2
  else Numeral.valueOf 10 (cs.map fun c => c.toNat - '0'.toNat) % 256

/-- Carries out a command whose words are known. -/
def perform (s : State) (output errors : Target) : List String → State
  | [] => { s with status := 0 }
  | name :: words =>
    if name == "echo" then { send s output (echoText words) with status := 0 }
    else if name == "printf" then
      let format := (unescape (words.headD "").toList).1
      { send s output (.ofList (formatText format (words.length + 1) words.tail)) with
        status := 0 }
    else if name == "exit" then
      { s with status := (words.head?.map statusOf).getD s.status, ended := true }
    else if name == ":" || name == "true" then { s with status := 0 }
    else if name == "false" then { s with status := 1 }
    else { send s errors (name ++ ": not found\n") with status := 127 }

/-- Whether a command is to be carried out. -/
def isDue (s : State) : Condition → Bool
  | .always => !s.ended
  | .onSuccess => !s.ended && s.status == 0
  | .onFailure => !s.ended && s.status != 0

/-- Carries out a command. -/
def step (s : State) (c : Command) : State :=
  if isDue s c.condition then
    match c.redirections.foldl redirect (some (s, .out, .err)) with
    | none => { s with status := 2 }
    | some (s, output, errors) => perform s output errors (c.words.flatMap (expand s))
  else s

/-- Runs the text of a script. -/
def run (text : String) (arguments : List String) (directory : Location) (files : FileSystem) :
    FileSystem × ProgramReport :=
  let s := (commands text).foldl step
    ⟨{ files with current := directory }, arguments, 0, "", "", false⟩
  ({ s.files with current := files.current }, ⟨s.status, s.output, s.errors⟩)

/-! ## Programs -/

/-- The names of the shell at the head of a script. -/
def shells : List String := ["#!/bin/sh", "#! /bin/sh", "#!/usr/bin/sh", "#!/bin/bash"]

/-- The script in a file that is a program. -/
def script? (data : ByteArray) : Except SystemErrorKind String :=
  match String.fromUTF8? data with
  | none => .error .notAProgram
  | some text =>
    let head : String := .ofList (text.toList.takeWhile (· != '\n'))
    if shells.contains (Text.trim head) then .ok text
    else if text.toList.take 2 == ['#', '!'] then .error .notFound
    else .error .notAProgram

/-- The program of a name in a directory. -/
def program (directory : Path) (name : String) : Program := fun arguments location files =>
  match files.find (directory.child name) with
  | .error e => (files, .error e)
  | .ok (.directory _) => (files, .error .accessDenied)
  | .ok (.file data executable) =>
    if !executable then (files, .error .accessDenied)
    else match script? data with
      | .error e => (files, .error e)
      | .ok text =>
        let (files, report) := run text arguments location files
        (files, .ok report)

end TypedApi.Script
