import TypedApi.Yaml.TagToken

/-! # The tokens of a text

Reads a text from its start to its end. Outside of brackets the columns of keys and entries open
and close blocks. A key without a mark of its own shows only at the colon behind it, so the places
where a key may have begun are remembered: on the same line and within 1024 characters.
-/
namespace TypedApi.Yaml
namespace Scan

/-! ## Blocks -/

/-- Whether the position is inside of brackets. -/
def inBrackets : Scan Bool := return (← get).depth != 0

/-- Opens a block at a column beyond the innermost one, and tells whether it did. -/
def openBlock (column : Nat) : Scan Bool := do
  let s ← get
  if s.indent < column then
    set { s with blocks := column :: s.blocks }
    return true
  else return false

/-- Ends the blocks beyond a column. -/
def closeBlocks (column : Int) : Scan Unit := do
  let s ← get
  if s.depth == 0 then
    let closed := s.blocks.takeWhile fun (c : Nat) => decide (column < c)
    closed.forM fun _ => emit .blockEnd
    modify fun s => { s with blocks := s.blocks.drop closed.length }

/-! ## Places of keys -/

/-- The longest key that may stand without a mark of its own. -/
def keyLimit : Nat := 1024

/-- Forgets the places of keys that satisfy `p`; a key that must stand there is missing. -/
def forgetKeys (p : Nat × KeyStart → Bool) : Scan Unit := do
  let s ← get
  if s.starts.any fun k => p k && k.2.required then throw .missingColon
  set { s with starts := s.starts.filter fun k => !p k }

/-- Forgets the place of a key in the innermost brackets. -/
def forgetKey : Scan Unit := do
  let depth := (← get).depth
  forgetKeys fun k => k.1 == depth

/-- Forgets the places of keys that are too far back. -/
def forgetStaleKeys : Scan Unit := do
  let cursor := (← get).cursor
  forgetKeys fun k => k.2.line != cursor.line || keyLimit < cursor.index - k.2.index

/-- Remembers that a key may begin here. -/
def markKey : Scan Unit := do
  let s ← get
  if s.keyAllowed then
    forgetKey
    let place : KeyStart :=
      ⟨s.count, s.depth == 0 && s.indent == s.cursor.column, s.cursor.index, s.cursor.line,
        s.cursor.column⟩
    modify fun s => { s with starts := (s.depth, place) :: s.starts }

/-! ## Tokens by their first character -/

/-- Reads a mark of one character. -/
def mark (t : Token) : Scan Unit := do
  skip 1
  emit t

/-- Reads the mark of a document. -/
def documentMark (t : Token) : Scan Unit := do
  closeBlocks (-1)
  forgetKey
  allowKey false
  skip 3
  emit t

/-- Reads an opening bracket. -/
def openBracket (t : Token) : Scan Unit := do
  markKey
  modify fun s => { s with depth := s.depth + 1 }
  allowKey true
  mark t

/-- Reads a closing bracket. -/
def closeBracket (t : Token) : Scan Unit := do
  forgetKey
  modify fun s => { s with depth := s.depth - 1 }
  allowKey false
  mark t

/-- Opens a block at the position for a mark that only stands where a key may begin. -/
def openBlockHere (t : Token) : Scan Unit := do
  let s ← get
  if s.depth == 0 then
    if !s.keyAllowed then throw .misplacedMark
    if ← openBlock s.cursor.column then emit t

/-- Reads the mark of an entry of a block sequence. -/
def blockEntry : Scan Unit := do
  openBlockHere .blockSequenceStart
  allowKey true
  forgetKey
  mark .blockEntry

/-- Reads the mark of a key. -/
def keyMark : Scan Unit := do
  openBlockHere .blockMappingStart
  allowKey !(← inBrackets)
  forgetKey
  mark .key

/-- Reads the colon between a key and its value. -/
def valueMark : Scan Unit := do
  let s ← get
  match s.starts.find? fun k => k.1 == s.depth with
  | some (_, start) =>
    set { s with starts := s.starts.filter fun k => k.1 != s.depth }
    emitAt start.position .key
    if s.depth == 0 then
      if ← openBlock start.column then emitAt start.position .blockMappingStart
    allowKey false
  | none =>
    openBlockHere .blockMappingStart
    allowKey !(← inBrackets)
    forgetKey
  mark .value

/-- Reads a token in front of which a key may begin. -/
def nodeToken (read : Scan Token) : Scan Unit := do
  markKey
  allowKey false
  emit (← read)

/-- Whether a plain scalar may begin with `c` when `next` follows. -/
def startsPlain (inBrackets : Bool) (c : Char) (next : Option Char) : Bool :=
  !(isGap c || "-?:,[]\x7b\x7d#&*!|>'\"%@\x60".toList.contains c)
    || (!isGapOrEnd next && (c == '-' || (!inBrackets && (c == '?' || c == ':'))))

/-- Reads the tokens that begin with `c`. -/
def tokenAt (c : Char) : Scan Unit := do
  let s ← get
  let next ← peek 1
  let brackets ← inBrackets
  if c == '%' && s.cursor.column == 0 then do
    closeBlocks (-1)
    forgetKey
    allowKey false
    emit (← directive)
  else if s.cursor.column == 0 && s.cursor.atDocumentMark then
    documentMark (if c == '-' then .documentStart else .documentEnd)
  else if c == '[' then openBracket .flowSequenceStart
  else if c == '\x7b' then openBracket .flowMappingStart
  else if c == ']' then closeBracket .flowSequenceEnd
  else if c == '\x7d' then closeBracket .flowMappingEnd
  else if c == ',' then do
    allowKey true
    forgetKey
    mark .flowEntry
  else if c == '-' && isGapOrEnd next then blockEntry
  else if c == '?' && (brackets || isGapOrEnd next) then keyMark
  else if c == ':' && (brackets || isGapOrEnd next) then valueMark
  else if c == '*' then nodeToken (return .alias (← anchorName))
  else if c == '&' then nodeToken (return .anchor (← anchorName))
  else if c == '!' then nodeToken tag
  else if (c == '|' || c == '>') && !brackets then do
    allowKey true
    forgetKey
    emit (← blockScalar (c == '>'))
  else if c == '\'' || c == '"' then nodeToken (quotedScalar c)
  else if startsPlain brackets c next then nodeToken plainScalar
  else throw .unexpectedCharacter

/-! ## The whole text -/

/-- Moves over spaces, comments and line ends. -/
def gap : Nat → Scan Unit
  | 0 => return
  | n + 1 => do
    discard (takeWhile (· == ' '))
    if (← peek 0) == some '#' then discard (takeWhile fun c => !isBreak c)
    if (← peek 0).any isBreak then
      discard lineBreak
      if !(← inBrackets) then allowKey true
      gap n

/-- Reads tokens up to the end of the text. -/
def tokens : Nat → Scan Unit
  | 0 => throw .unexpectedEnd
  | n + 1 => do
    gap (← budget)
    forgetStaleKeys
    closeBlocks (← get).cursor.column
    match ← peek 0 with
    | some c =>
      tokenAt c
      tokens n
    | none =>
      closeBlocks (-1)
      forgetKey
      emit .streamEnd

end Scan

/-- The tokens of a text: those before the first fault, and the fault. -/
structure Tokens where
  read : List Token
  fault : Option Fault
deriving Repr

/-- A text without the byte order mark at its start. -/
def withoutOrderMark (text : List Char) : List Char :=
  match text with
  | c :: rest => if c.toNat == 0xFEFF then rest else text
  | [] => []

/-- The tokens of a text. -/
def Tokens.ofText (text : String) : Tokens :=
  let cs := text.toList
  if !cs.all isAllowed then ⟨[], some .forbiddenCharacter⟩
  else
    let (outcome, s) := (Scan.tokens (cs.length + 1)).run.run (.start (withoutOrderMark cs))
    match outcome with
    | .ok _ => ⟨s.tokens.reverse, none⟩
    | .error e => ⟨s.tokens.reverse, some e⟩

end TypedApi.Yaml
