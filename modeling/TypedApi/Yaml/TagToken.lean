import TypedApi.Yaml.ScalarToken

/-! # Tokens of nodes and documents

Anchors, aliases and tags, which stand in front of a node or in its place, and the directives in
front of a document.
-/
namespace TypedApi.Yaml
namespace Scan

/-- Reads the name of an anchor or an alias, after its mark. -/
def anchorName : Scan String := do
  skip 1
  let name ← takeWhile isNameChar
  if name.isEmpty then throw .unexpectedCharacter
  let follows (c : Char) : Bool :=
    isGap c || ['?', ':', ',', ']', '\x7d', '%', '@', '\x60'].contains c
  if !(← peek 0).all follows then throw .unexpectedCharacter
  return .ofList name

/-! ## Tags -/

/-- A character of a tag that stands for itself. -/
def isTagChar (c : Char) : Bool :=
  c.isAlphanum || "-;/?:@&=+$,_.!~*'()[]".toList.contains c

/-- Reads bytes, each written as a percent sign and two hexadecimal digits. -/
def escapedBytes : Nat → Scan (List UInt8)
  | 0 => return []
  | n + 1 => do
    if ← accept '%' then
      match (← get).cursor.rest with
      | high :: low :: _ =>
        match hexValue? high, hexValue? low with
        | some h, some l =>
          skip 2
          return (h * 16 + l).toUInt8 :: (← escapedBytes n)
        | _, _ => throw .unexpectedCharacter
      | _ => throw .unexpectedCharacter
    else return []

/-- Reads what follows the handle of a tag. -/
def tagRest : Nat → Scan (List Char)
  | 0 => return []
  | n + 1 => do
    let plain ← takeWhile isTagChar
    if (← peek 0) == some '%' then
      match String.fromUTF8? ⟨(← escapedBytes (← budget)).toArray⟩ with
      | some text => return plain ++ text.toList ++ (← tagRest n)
      | none => throw .unexpectedCharacter
    else return plain

/-- Reads the suffix of a tag, which is not empty. -/
def tagSuffix : Scan String := do
  let text ← tagRest (← budget)
  if text.isEmpty then throw .unexpectedCharacter
  return .ofList text

/-- Reads a handle: a name between exclamation marks, or a single mark before a space. -/
def tagHandle : Scan String := do
  if !(← accept '!') then throw .unexpectedCharacter
  if (← peek 0) == some ' ' then return "!"
  let name ← takeWhile isNameChar
  if !(← accept '!') then throw .unexpectedCharacter
  return "!" ++ .ofList name ++ "!"

/-- Reads a tag. It is written in full between angle brackets, or as a handle and a suffix, or it
is a single mark, which chooses the type by the content. -/
def tag : Scan Token := do
  let next ← peek 1
  let token ←
    if next == some '<' then do
      skip 2
      let suffix ← tagSuffix
      if !(← accept '>') then throw .unexpectedCharacter
      pure (Token.tag none suffix)
    else if isGapOrEnd next then do
      skip 1
      pure (Token.tag none "!")
    else do
      let word := ((← get).cursor.rest.drop 1).takeWhile fun c => c != ' ' && !isBreak c
      let handle ← if word.contains '!' then tagHandle else do
        skip 1
        pure "!"
      pure (Token.tag (some handle) (← tagSuffix))
  if !isSpaceOrEnd (← peek 0) then throw .unexpectedCharacter
  return token

/-! ## Directives -/

/-- Reads one of the two numbers of a version. -/
def versionNumber : Scan Nat := do
  let digits ← takeWhile Char.isDigit
  if digits.isEmpty then throw .unexpectedCharacter
  match Numeral.natural? 10 digits with
  | some n => return n
  | none => throw .meaningless

/-- Reads the version after its directive's name. -/
def versionDirective : Scan Token := do
  discard (takeWhile (· == ' '))
  let major ← versionNumber
  if !(← accept '.') then throw .unexpectedCharacter
  discard versionNumber
  if !isSpaceOrEnd (← peek 0) then throw .unexpectedCharacter
  return .versionDirective major

/-- Reads a handle and what it stands for, after the directive's name. -/
def tagDirective : Scan Token := do
  discard (takeWhile (· == ' '))
  let handle ← tagHandle
  if (← peek 0) != some ' ' then throw .unexpectedCharacter
  discard (takeWhile (· == ' '))
  let lead ← tagSuffix
  if !isSpaceOrEnd (← peek 0) then throw .unexpectedCharacter
  return .tagDirective handle lead

/-- Reads a directive, with the line that holds it. -/
def directive : Scan Token := do
  skip 1
  let name ← takeWhile isNameChar
  if name.isEmpty || !isSpaceOrEnd (← peek 0) then throw .unexpectedCharacter
  let token ←
    if name == "YAML".toList then versionDirective
    else if name == "TAG".toList then tagDirective
    else do
      discard (takeWhile fun c => !isBreak c)
      pure Token.otherDirective
  restOfLine
  return token

end Scan
end TypedApi.Yaml
