import TypedApi.Yaml.Token

/-! # The reading position of a YAML text

What is left of the text, where that is, and what the lines read so far imply: the indentation of
the open blocks, the depth of the open brackets, and the places where a key may have begun, which
shows only when a colon follows.
-/
namespace TypedApi.Yaml

/-- A position in a text. -/
structure Cursor where
  rest : List Char
  line : Nat
  column : Nat
  index : Nat
deriving Repr

namespace Cursor

/-- The position at the start of a text. -/
def start (text : List Char) : Cursor := ⟨text, 0, 0, 0⟩

/-- The position after the next character. A byte order mark takes no column. -/
def next (c : Cursor) : Cursor :=
  match c.rest with
  | [] => c
  | x :: rest =>
    if isBreak x && !(x == '\r' && rest.head? == some '\n') then
      ⟨rest, c.line + 1, 0, c.index + 1⟩
    else ⟨rest, c.line, if x.toNat == 0xFEFF then c.column else c.column + 1, c.index + 1⟩

/-- The position after `n` characters. -/
def skip (c : Cursor) : Nat → Cursor
  | 0 => c
  | n + 1 => c.next.skip n

/-- The character `n` places ahead. -/
def peek (c : Cursor) (n : Nat) : Option Char := c.rest[n]?

/-- Whether a line starts here that separates documents. -/
def atDocumentMark (c : Cursor) : Bool :=
  (c.rest.take 3 == ['-', '-', '-'] || c.rest.take 3 == ['.', '.', '.']) && isGapOrEnd (c.peek 3)

end Cursor

/-- A place where a key may have begun. -/
structure KeyStart where
  /-- The number of tokens before the place. -/
  position : Nat
  /-- Whether the text is wrong if no key begins here. -/
  required : Bool
  index : Nat
  line : Nat
  column : Nat
deriving Repr

/-- The state of reading a text. -/
structure Lexer where
  cursor : Cursor
  /-- The tokens read, the last one first. -/
  tokens : List Token
  /-- The number of tokens read. -/
  count : Nat
  /-- The number of open brackets. -/
  depth : Nat
  /-- The columns of the open blocks, the innermost one first. -/
  blocks : List Nat
  /-- Whether a key may begin here. -/
  keyAllowed : Bool
  /-- The places where keys may have begun, each with its bracket depth. -/
  starts : List (Nat × KeyStart)
deriving Repr

namespace Lexer

/-- The state before anything is read. -/
def start (text : List Char) : Lexer :=
  ⟨.start text, [], 0, 0, [], true, []⟩

/-- The column of the innermost block, one less than zero outside of all. -/
def indent (s : Lexer) : Int :=
  match s.blocks with
  | [] => -1
  | column :: _ => column

end Lexer

/-- A step of reading. The tokens read before a fault are kept. -/
abbrev Scan := ExceptT Fault (StateM Lexer)

namespace Scan

/-- The character `n` places ahead. -/
def peek (n : Nat) : Scan (Option Char) := return (← get).cursor.peek n

/-- Moves over `n` characters. -/
def skip (n : Nat) : Scan Unit := modify fun s => { s with cursor := s.cursor.skip n }

/-- Reads the longest run of characters of a class. -/
def takeWhile (p : Char → Bool) : Scan (List Char) := do
  let run := (← get).cursor.rest.takeWhile p
  skip run.length
  return run

/-- Reads the next character if it is `c`, and tells whether it was. -/
def accept (c : Char) : Scan Bool := do
  if (← peek 0) == some c then
    skip 1
    return true
  else return false

/-- A bound on the steps that the rest of the text allows. -/
def budget : Scan Nat := return (← get).cursor.rest.length + 1

/-- Reads a line end. Carriage returns and the next-line character become line feeds. -/
def lineBreak : Scan (List Char) := do
  match (← get).cursor.rest with
  | '\r' :: '\n' :: _ =>
    skip 2
    return ['\n']
  | c :: _ =>
    if isBreak c then
      skip 1
      return [if c == '\r' || c.toNat == 0x85 then '\n' else c]
    else return []
  | [] => return []

/-- Skips spaces, a comment and the end of the line; only these may stand here. -/
def restOfLine : Scan Unit := do
  discard (takeWhile (· == ' '))
  if (← peek 0) == some '#' then discard (takeWhile fun c => !isBreak c)
  if !isLineEnd (← peek 0) then throw .unexpectedCharacter
  discard lineBreak

/-- Adds a token. -/
def emit (t : Token) : Scan Unit :=
  modify fun s => { s with tokens := t :: s.tokens, count := s.count + 1 }

/-- Adds a token in front of all but the first `position` tokens. -/
def emitAt (position : Nat) (t : Token) : Scan Unit :=
  modify fun s =>
    let later := s.count - position
    { s with
      tokens := s.tokens.take later ++ t :: s.tokens.drop later
      count := s.count + 1 }

/-- Says whether a key may begin here. -/
def allowKey (allowed : Bool) : Scan Unit := modify fun s => { s with keyAllowed := allowed }

end Scan
end TypedApi.Yaml
