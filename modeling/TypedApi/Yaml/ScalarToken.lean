import TypedApi.Number.Numeral
import TypedApi.Yaml.Cursor

/-! # Scalar tokens

The three ways to write a scalar: plain, in quotes, and as a block of lines. Inside a scalar a
single line end becomes a space, and of several all but the first are kept.
-/
namespace TypedApi.Yaml

namespace ScalarText

/-- A text of characters. -/
def ofChars (cs : List Char) : ScalarText := ⟨.ofList cs, false⟩

/-- The characters of code points; the halves of a UTF-16 pair become the character that the pair
stands for. -/
def joinHalves : List Nat → List Char
  | [] => []
  | [n] => [Char.ofNat (if 0xD800 ≤ n && n < 0xE000 then 0xFFFD else n)]
  | high :: low :: rest =>
    if 0xD800 ≤ high && high < 0xDC00 && 0xDC00 ≤ low && low < 0xE000 then
      Char.ofNat (0x10000 + (high - 0xD800) * 0x400 + (low - 0xDC00)) :: joinHalves rest
    else
      Char.ofNat (if 0xD800 ≤ high && high < 0xE000 then 0xFFFD else high)
        :: joinHalves (low :: rest)

/-- A text of code points. -/
def ofPoints (points : List Nat) : ScalarText :=
  ⟨.ofList (joinHalves points), points.any fun n => 0xD800 ≤ n && n < 0xE000⟩

end ScalarText

namespace Scan

/-- What the line ends `first` and `later` mean inside a scalar. -/
def folded (first later : List Char) : List Char :=
  if first != ['\n'] then first ++ later
  else if later.isEmpty then [' ']
  else later

/-! ## Scalars in quotes -/

/-- The character that a backslash with one other character stands for. -/
def simpleEscape? (c : Char) : Option Nat :=
  match c with
  | '0' => some 0
  | 'a' => some 7
  | 'b' => some 8
  | 't' => some 9
  | '\t' => some 9
  | 'n' => some 10
  | 'v' => some 11
  | 'f' => some 12
  | 'r' => some 13
  | 'e' => some 27
  | ' ' => some 32
  | '"' => some 34
  | '\\' => some 92
  | '/' => some 47
  | 'N' => some 0x85
  | '_' => some 0xA0
  | 'L' => some 0x2028
  | 'P' => some 0x2029
  | _ => none

/-- The number of hexadecimal digits of an escape. -/
def escapeWidth? (c : Char) : Option Nat :=
  match c with
  | 'x' => some 2
  | 'u' => some 4
  | 'U' => some 8
  | _ => none

/-- The value of an ASCII digit in hexadecimal. -/
def hexValue? (c : Char) : Option Nat :=
  if c.toNat < 128 then Numeral.digitValue? 16 c else none

/-- Reads a number of `width` hexadecimal digits. -/
def hexNumber (width : Nat) : Scan Nat := do
  let digits := (← get).cursor.rest.take width
  match digits.mapM hexValue? with
  | some values =>
    if values.length == width then
      skip width
      return Numeral.valueOf 16 values
    else throw .unexpectedEnd
  | none => throw .unexpectedCharacter

/-- Reads the empty lines after a line end in quotes; no document may end there. -/
def quotedBreaks : Nat → Scan (List Char)
  | 0 => throw .unexpectedEnd
  | n + 1 => do
    if (← get).cursor.atDocumentMark then throw .misplacedMark
    discard (takeWhile fun c => c == ' ' || c == '\t')
    match ← peek 0 with
    | some c =>
      if isBreak c then
        let first ← lineBreak
        let later ← quotedBreaks n
        return first ++ later
      else return []
    | none => return []

/-- Reads the gap between two words in quotes. -/
def quotedGap : Scan (List Char) := do
  let blanks ← takeWhile fun c => c == ' ' || c == '\t'
  match ← peek 0 with
  | none => throw .unexpectedEnd
  | some c =>
    if isBreak c then
      let first ← lineBreak
      let later ← quotedBreaks (← budget)
      return folded first later
    else return blanks

/-- Reads an escape after its backslash. -/
def escape : Scan (List Nat) := do
  match ← peek 0 with
  | none => throw .unexpectedEnd
  | some c =>
    match simpleEscape? c, escapeWidth? c with
    | some n, _ =>
      skip 1
      return [n]
    | none, some width =>
      skip 1
      let n ← hexNumber width
      if 0x110000 ≤ n then throw .meaningless
      return [n]
    | none, none =>
      if isBreak c then
        discard lineBreak
        let later ← quotedBreaks (← budget)
        return later.map Char.toNat
      else throw .unexpectedCharacter

/-- A character that stands for itself in quotes of both kinds. -/
def isQuotedChar (c : Char) : Bool :=
  !isGap c && c != '\'' && c != '"' && c != '\\'

/-- Reads the rest of a scalar in quotes, up to and with the closing quote. -/
def quotedRest (quote : Char) : Nat → Scan (List Nat)
  | 0 => throw .unexpectedEnd
  | n + 1 => do
    let word ← takeWhile isQuotedChar
    let head := word.map Char.toNat
    match (← get).cursor.rest with
    | [] => throw .unexpectedEnd
    | '\'' :: rest =>
      if quote == '\'' then
        if rest.head? == some '\'' then
          skip 2
          return head ++ '\''.toNat :: (← quotedRest quote n)
        else
          skip 1
          return head
      else
        skip 1
        return head ++ '\''.toNat :: (← quotedRest quote n)
    | '"' :: _ =>
      skip 1
      if quote == '"' then return head
      else return head ++ '"'.toNat :: (← quotedRest quote n)
    | '\\' :: _ =>
      skip 1
      if quote == '"' then
        let points ← escape
        return head ++ points ++ (← quotedRest quote n)
      else return head ++ '\\'.toNat :: (← quotedRest quote n)
    | _ :: _ =>
      let gap ← quotedGap
      return head ++ gap.map Char.toNat ++ (← quotedRest quote n)

/-- Reads a scalar in quotes. -/
def quotedScalar (quote : Char) : Scan Token := do
  skip 1
  let points ← quotedRest quote (← budget)
  return .scalar (.ofPoints points) false

/-! ## Plain scalars -/

/-- The length of the run of a plain scalar at the start of a text. Inside brackets, marks of the
structure of collections end it. -/
def plainLength (inBrackets : Bool) : List Char → Nat
  | [] => 0
  | c :: rest =>
    let colon := c == ':' && (isGapOrEnd rest.head?
      || (inBrackets && rest.head?.any fun d => [',', '[', ']', '\x7b', '\x7d'].contains d))
    let mark := inBrackets && [',', '?', '[', ']', '\x7b', '\x7d'].contains c
    if isGap c || colon || mark then 0 else plainLength inBrackets rest + 1

/-- Reads the empty lines after a line end in a plain scalar; none are read before the end of a
document. -/
def plainBreaks : Nat → Scan (Option (List Char))
  | 0 => throw .unexpectedEnd
  | n + 1 => do
    match ← peek 0 with
    | some ' ' =>
      skip 1
      plainBreaks n
    | some c =>
      if isBreak c then
        let first ← lineBreak
        if (← get).cursor.atDocumentMark then return none
        match ← plainBreaks n with
        | some later => return some (first ++ later)
        | none => return none
      else return some []
    | none => return some []

/-- Reads the gap between two words of a plain scalar. An empty gap ends the scalar. -/
def plainGap : Scan (List Char) := do
  let blanks ← takeWhile (· == ' ')
  if ((← peek 0).any isBreak) then
    let first ← lineBreak
    allowKey true
    if (← get).cursor.atDocumentMark then return []
    match ← plainBreaks (← budget) with
    | some later => return folded first later
    | none => return []
  else return blanks

/-- Reads the rest of a plain scalar after the gap `gap`. -/
def plainRest (indent : Int) (gap : List Char) : Nat → Scan (List Char)
  | 0 => throw .unexpectedEnd
  | n + 1 => do
    let s ← get
    let length :=
      if s.cursor.rest.head? == some '#' then 0 else plainLength (s.depth != 0) s.cursor.rest
    if length == 0 then return []
    allowKey false
    skip length
    let word := s.cursor.rest.take length
    let next ← plainGap
    let s ← get
    if next.isEmpty || s.cursor.rest.head? == some '#'
        || (s.depth == 0 && (s.cursor.column : Int) < indent) then
      return gap ++ word
    else return gap ++ word ++ (← plainRest indent next n)

/-- Reads a plain scalar. -/
def plainScalar : Scan Token := do
  let text ← plainRest ((← get).indent + 1) [] (← budget)
  return .scalar (.ofChars text) true

/-! ## Block scalars -/

/-- What happens to the line ends at the end of a block scalar. -/
inductive Chomping where
  /-- One is kept. -/
  | clip
  /-- All are kept. -/
  | keep
  /-- None is kept. -/
  | strip
deriving DecidableEq, Repr

/-- Reads the sign that chooses the chomping. -/
def chomping? : Scan (Option Chomping) := do
  if ← accept '+' then return some .keep
  else if ← accept '-' then return some .strip
  else return none

/-- Reads the digit that gives the indentation. -/
def indentation? : Scan (Option Nat) := do
  match ← peek 0 with
  | some c =>
    if c.isDigit then
      if c == '0' then throw .unexpectedCharacter
      skip 1
      return some (c.toNat - '0'.toNat)
    else return none
  | none => return none

/-- Reads the signs at the head of a block scalar, which may come in either order. -/
def blockHeader : Scan (Chomping × Option Nat) := do
  let header ← do
    match ← chomping? with
    | some chomping => pure (chomping, ← indentation?)
    | none =>
      match ← indentation? with
      | some n => pure (((← chomping?).getD .clip), some n)
      | none => pure (.clip, none)
  if !isSpaceOrEnd (← peek 0) then throw .unexpectedCharacter
  return header

/-- Reads the empty lines at the head of a block scalar: their line ends, and the widest column
that the blanks of a line reach. -/
def blockIndentation (widest : Nat) : Nat → Scan (List Char × Nat)
  | 0 => throw .unexpectedEnd
  | n + 1 => do
    match ← peek 0 with
    | some ' ' =>
      skip 1
      blockIndentation (max widest (← get).cursor.column) n
    | some c =>
      if isBreak c then
        let first ← lineBreak
        let (later, widest) ← blockIndentation widest n
        return (first ++ later, widest)
      else return ([], widest)
    | none => return ([], widest)

/-- Skips the blanks that indent a line of a block scalar. -/
def blockIndent (indent : Nat) : Scan Unit := do
  let s ← get
  let blanks := (s.cursor.rest.takeWhile (· == ' ')).length
  skip (min blanks (indent - s.cursor.column))

/-- Reads the empty lines between lines of a block scalar. -/
def blockBreaks (indent : Nat) : Nat → Scan (List Char)
  | 0 => throw .unexpectedEnd
  | n + 1 => do
    blockIndent indent
    if (← peek 0).any isBreak then
      let first ← lineBreak
      let later ← blockBreaks indent n
      return first ++ later
    else return []

/-- What ends a block scalar: its last line end and the empty lines after it. -/
structure BlockTail where
  lineEnd : List Char
  breaks : List Char
deriving Repr

/-- Reads the lines of a block scalar after the empty lines `breaks`. -/
def blockLines (folding : Bool) (indent : Nat) (tail : BlockTail) :
    Nat → Scan (List Char × BlockTail)
  | 0 => throw .unexpectedEnd
  | n + 1 => do
    let s ← get
    if s.cursor.column != indent || s.cursor.rest.isEmpty then return ([], tail)
    let startsWithText := !(s.cursor.rest.head?.any fun c => c == ' ' || c == '\t')
    let line ← takeWhile fun c => !isBreak c
    let lineEnd ← lineBreak
    let breaks ← blockBreaks indent (← budget)
    let s ← get
    let next : BlockTail := ⟨lineEnd, breaks⟩
    if s.cursor.column == indent && !s.cursor.rest.isEmpty then
      let nextStartsWithText := !(s.cursor.rest.head?.any fun c => c == ' ' || c == '\t')
      let joint :=
        if folding && lineEnd == ['\n'] && startsWithText && nextStartsWithText then
          if breaks.isEmpty then [' '] else []
        else lineEnd
      let (later, last) ← blockLines folding indent next n
      return (tail.breaks ++ line ++ joint ++ later, last)
    else return (tail.breaks ++ line, next)

/-- Reads a block scalar. -/
def blockScalar (folding : Bool) : Scan Token := do
  skip 1
  let (chomping, width) ← blockHeader
  restOfLine
  let base := max 1 ((← get).indent + 1).toNat
  let (indent, breaks) ← match width with
    | none => do
      let (breaks, widest) ← blockIndentation 0 (← budget)
      pure (max base widest, breaks)
    | some n => do
      let indent := base + n - 1
      pure (indent, ← blockBreaks indent (← budget))
  let (text, tail) ← blockLines folding indent ⟨[], breaks⟩ (← budget)
  let ending := match chomping with
    | .strip => []
    | .clip => tail.lineEnd
    | .keep => tail.lineEnd ++ tail.breaks
  return .scalar (.ofChars (text ++ ending)) false

end Scan
end TypedApi.Yaml
