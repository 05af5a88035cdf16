import TypedApi.Yaml.Tag
import TypedApi.Yaml.Tokens

/-! # The nodes of a text

The tokens of a text are those of one document. A document is a node: a scalar, a sequence, a
mapping, or an alias of a node that was given an anchor before. An alias of a node that holds it
makes a node without end, which is cut there.
-/
namespace TypedApi.Yaml

/-- A node of a document. -/
inductive Node where
  | scalar (tag : Tag) (content : ScalarText)
  | sequence (tag : Tag) (items : List Node)
  /-- A mapping with its entries in the order of the text, merges included. -/
  | mapping (anchor : Option String) (tag : Tag) (entries : List (Node × Node))
  /-- An alias of a collection that holds it. -/
  | enclosing (anchor : String)
deriving Repr

namespace Node

/-- The type of a node. -/
def tag : Node → Tag
  | .scalar tag _ => tag
  | .sequence tag _ => tag
  | .mapping _ tag _ => tag
  | .enclosing _ => .map

/-- The node of an empty text. -/
def empty : Node := .scalar .null ⟨"", false⟩

end Node

/-- The state of reading nodes. -/
structure Reading where
  tokens : List Token
  /-- The fault after the last token. -/
  fault : Option Fault
  /-- What the handles of tags stand for. -/
  handles : List (String × String)
  /-- The nodes that aliases may name. One whose end was not read yet is known by its name only. -/
  anchors : List (String × Node)
deriving Repr

/-- A step of reading nodes. -/
abbrev Read := StateT Reading (Except Fault)

/-- What stands in front of a node. -/
structure Properties where
  anchor : Option String
  tag : Option String
deriving DecidableEq, Repr

namespace Read

/-! ## Tokens -/

/-- The next token. -/
def peek : Read Token := do
  let s ← get
  match s.tokens with
  | t :: _ => return t
  | [] => throw (s.fault.getD .unexpectedEnd)

/-- Moves over the next token. -/
def skip : Read Unit := modify fun s => { s with tokens := s.tokens.drop 1 }

/-- Moves over the next token if it is `t`, and tells whether it was. -/
def accept (t : Token) : Read Bool := do
  if (← peek) == t then
    skip
    return true
  else return false

/-- Moves over the token `t`, which must stand here. -/
def expect (t : Token) : Read Unit := do
  if !(← accept t) then throw .unexpectedToken

/-- Whether the next token is one of `ts`. -/
def nextIn (ts : List Token) : Read Bool := return ts.contains (← peek)

/-! ## Properties -/

/-- Reads an anchor. -/
def anchor? : Read (Option String) := do
  match ← peek with
  | .anchor name =>
    skip
    return some name
  | _ => return none

/-- Reads a tag and spells it out. -/
def tag? : Read (Option String) := do
  match ← peek with
  | .tag none name =>
    skip
    return some name
  | .tag (some handle) suffix =>
    skip
    match (← get).handles.lookup handle with
    | some lead => return some (lead ++ suffix)
    | none => throw .unknownTagHandle
  | _ => return none

/-- Reads an anchor and a tag in either order. -/
def properties : Read Properties := do
  match ← anchor? with
  | some name => return ⟨some name, ← tag?⟩
  | none =>
    let tag ← tag?
    return ⟨← anchor?, tag⟩

/-- Lets aliases name a node. -/
def name (anchor : Option String) (node : Node) : Read Unit :=
  match anchor with
  | none => return
  | some a => modify fun s => { s with anchors := (a, node) :: s.anchors }

/-- Lets aliases name a node whose end is not read yet; no other node has the name. -/
def announce (anchor : Option String) : Read Unit := do
  match anchor with
  | none => return
  | some a =>
    if ((← get).anchors.lookup a).isSome then throw .repeatedAnchor
    name anchor (.enclosing a)

/-- The node that an alias names. -/
def resolve (a : String) : Read Node := do
  match (← get).anchors.lookup a with
  | some node => return node
  | none => throw .unknownAnchor

/-! ## Nodes -/

/-- The type of a collection that has the type `plain` without a tag. -/
def collectionTag (plain : Tag) (tag : Option String) : Tag :=
  match tag with
  | none => plain
  | some name => if name == "!" then plain else .ofName name

/-- The scalar with the given properties. -/
def scalar (p : Properties) (content : ScalarText) (plain : Bool) : Node :=
  let tag : Tag :=
    match p.tag with
    | none => if plain then .ofPlain content.text else .str
    | some name => if name == "!" then .ofPlain content.text else .ofName name
  .scalar tag content

/-- Where a node stands. -/
inductive Position where
  /-- Within brackets. -/
  | flow
  /-- As a document or an entry of a block. -/
  | block
  /-- As a key or value of a block, where entries of a sequence need no indentation. -/
  | member
deriving DecidableEq, Repr

mutual

/-- Reads a node. -/
def node (position : Position) : Nat → Read Node
  | 0 => throw .unexpectedEnd
  | n + 1 => do
    match ← peek with
    | .alias a =>
      skip
      resolve a
    | _ =>
      let p ← properties
      announce p.anchor
      let content ← content position p n
      name p.anchor content
      return content

/-- Reads a node after its properties. -/
def content (position : Position) (p : Properties) : Nat → Read Node
  | 0 => throw .unexpectedEnd
  | n + 1 => do
    match ← peek with
    | .scalar text plain =>
      skip
      return scalar p text plain
    | .flowSequenceStart =>
      skip
      return .sequence (collectionTag .seq p.tag) (← flowItems true n)
    | .flowMappingStart =>
      skip
      return .mapping p.anchor (collectionTag .map p.tag) (← flowEntries true n)
    | t =>
      if t == .blockSequenceStart && position != .flow then do
        skip
        let items ← blockItems [.blockEntry, .blockEnd] n
        expect .blockEnd
        return .sequence (collectionTag .seq p.tag) items
      else if t == .blockMappingStart && position != .flow then do
        skip
        return .mapping p.anchor (collectionTag .map p.tag) (← blockEntries n)
      else if t == .blockEntry && position == .member then
        return .sequence (collectionTag .seq p.tag)
          (← blockItems [.blockEntry, .key, .value, .blockEnd] n)
      else if p.anchor.isSome || p.tag.isSome then
        return scalar p ⟨"", false⟩ true
      else throw .unexpectedToken

/-- Reads a node, which is empty if one of `ends` stands in its place. -/
def nodeUnless (ends : List Token) (position : Position) : Nat → Read Node
  | 0 => throw .unexpectedEnd
  | n + 1 => do
    if ← nextIn ends then return .empty
    else node position n

/-- Reads the entries of a block sequence. -/
def blockItems (ends : List Token) : Nat → Read (List Node)
  | 0 => throw .unexpectedEnd
  | n + 1 => do
    if ← accept .blockEntry then
      let item ← nodeUnless ends .block n
      return item :: (← blockItems ends n)
    else return []

/-- Reads the entries of a block mapping, and its end. -/
def blockEntries : Nat → Read (List (Node × Node))
  | 0 => throw .unexpectedEnd
  | n + 1 => do
    let ends := [Token.key, .value, .blockEnd]
    if ← accept .key then
      let key ← nodeUnless ends .member n
      let value ←
        if ← accept .value then nodeUnless ends .member n
        else pure .empty
      return (key, value) :: (← blockEntries n)
    else
      expect .blockEnd
      return []

/-- Reads the items of a flow sequence, and its end. A key makes a mapping of one entry. -/
def flowItems (first : Bool) : Nat → Read (List Node)
  | 0 => throw .unexpectedEnd
  | n + 1 => do
    if ← accept .flowSequenceEnd then return []
    if !first then expect .flowEntry
    if ← accept .flowSequenceEnd then return []
    let item ←
      if ← accept .key then
        pure (Node.mapping none .map [← flowEntry .flowSequenceEnd n])
      else node .flow n
    return item :: (← flowItems false n)

/-- Reads the entries of a flow mapping, and its end. -/
def flowEntries (first : Bool) : Nat → Read (List (Node × Node))
  | 0 => throw .unexpectedEnd
  | n + 1 => do
    if ← accept .flowMappingEnd then return []
    if !first then expect .flowEntry
    if ← accept .flowMappingEnd then return []
    let entry ←
      if ← accept .key then flowEntry .flowMappingEnd n
      else pure (← node .flow n, Node.empty)
    return entry :: (← flowEntries false n)

/-- Reads an entry of a flow mapping after the mark of its key. -/
def flowEntry (close : Token) : Nat → Read (Node × Node)
  | 0 => throw .unexpectedEnd
  | n + 1 => do
    let key ← nodeUnless [.value, .flowEntry, close] .flow n
    let value ←
      if ← accept .value then nodeUnless [.flowEntry, close] .flow n
      else pure .empty
    return (key, value)

end

/-! ## Documents -/

/-- What the handles of tags stand for in every document. -/
def commonHandles : List (String × String) := [("!", "!"), ("!!", Tag.lead)]

/-- Reads the directives of a document. -/
def directives (versioned : Bool) (handles : List (String × String)) :
    Nat → Read (List (String × String))
  | 0 => throw .unexpectedEnd
  | n + 1 => do
    match ← peek with
    | .versionDirective major =>
      if versioned || major != 1 then throw .badDirective
      skip
      directives true handles n
    | .tagDirective handle lead =>
      if (handles.lookup handle).isSome then throw .badDirective
      skip
      directives versioned ((handle, lead) :: handles) n
    | .otherDirective =>
      skip
      directives versioned handles n
    | _ => return handles

/-- Whether directives or the mark of a document stand here. -/
def startsExplicitly : Read Bool := do
  match ← peek with
  | .versionDirective _ => return true
  | .tagDirective _ _ => return true
  | .otherDirective => return true
  | t => return t == .documentStart

/-- Reads a document that begins with directives or its mark. -/
def explicitDocument (fuel : Nat) : Read Node := do
  let handles ← directives false [] fuel
  modify fun s => { s with handles := handles ++ commonHandles }
  expect .documentStart
  if (← startsExplicitly) || (← nextIn [.documentEnd, .streamEnd]) then return .empty
  else node .block fuel

/-- Skips the marks of the end of a document. -/
def documentEnds : Nat → Read Unit
  | 0 => return
  | n + 1 => do
    if ← accept .documentEnd then documentEnds n

/-- Reads the only document of a text; there is none in an empty text. -/
def document (fuel : Nat) : Read (Option Node) := do
  if ← nextIn [.streamEnd] then return none
  let root ← if ← startsExplicitly then explicitDocument fuel else node .block fuel
  documentEnds fuel
  if ← nextIn [.streamEnd] then return some root
  else throw .severalDocuments

end Read

/-- The only document of a text; there is none in an empty text. -/
def Node.ofText (text : String) : Except Fault (Option Node) :=
  let tokens := Tokens.ofText text
  (Read.document (4 * tokens.read.length + 8)).run'
    ⟨tokens.read, tokens.fault, Read.commonHandles, []⟩

end TypedApi.Yaml
