/-! # YAML tokens

A YAML text is a sequence of tokens: the marks of its structure, with the starts and ends of the
blocks that indentation makes, and the scalars between them.
-/
namespace TypedApi.Yaml

/-- Why a text denotes no value. -/
inductive Fault where
  /-- A character that YAML does not allow anywhere. -/
  | forbiddenCharacter
  /-- A character that no token can hold at its place. -/
  | unexpectedCharacter
  /-- A text that ends inside a token. -/
  | unexpectedEnd
  /-- A mark of structure where the indentation or the line does not allow it. -/
  | misplacedMark
  /-- A key that no colon follows. -/
  | missingColon
  /-- A token that the grammar does not allow at its place. -/
  | unexpectedToken
  /-- A directive that is given twice or names another version. -/
  | badDirective
  | unknownTagHandle
  | unknownAnchor
  | repeatedAnchor
  | severalDocuments
  /-- A tag that names no type, or does not fit the kind of its node. -/
  | badTag
  /-- A mapping whose keys are collections. -/
  | collectionAsKey
  /-- A merge of something other than mappings. -/
  | badMerge
  /-- A scalar that denotes no value of its type. Unlike the others this is no fault of syntax. -/
  | meaningless
deriving DecidableEq, Repr

/-- The text of a scalar. -/
structure ScalarText where
  text : String
  /-- Whether the text was spelled with halves of UTF-16 pairs. -/
  halved : Bool
deriving DecidableEq, Repr

/-- A token of a YAML text. -/
inductive Token where
  | versionDirective (major : Nat)
  | tagDirective (handle lead : String)
  | otherDirective
  | documentStart
  | documentEnd
  | streamEnd
  | blockSequenceStart
  | blockMappingStart
  | blockEnd
  | flowSequenceStart
  | flowSequenceEnd
  | flowMappingStart
  | flowMappingEnd
  | blockEntry
  | flowEntry
  | key
  | value
  | alias (name : String)
  | anchor (name : String)
  /-- A tag; one without a handle is written out in full. -/
  | tag (handle : Option String) (suffix : String)
  | scalar (content : ScalarText) (plain : Bool)
deriving DecidableEq, Repr

/-! ## Characters -/

/-- A character that ends a line. -/
def isBreak (c : Char) : Bool :=
  c == '\n' || c == '\r' || c.toNat == 0x85 || c.toNat == 0x2028 || c.toNat == 0x2029

/-- A space, a tab or the end of a line. -/
def isGap (c : Char) : Bool := c == ' ' || c == '\t' || isBreak c

/-- A gap or the end of the text. -/
def isGapOrEnd (c : Option Char) : Bool := c.all isGap

/-- A space, or the end of a line or of the text. -/
def isSpaceOrEnd (c : Option Char) : Bool := c.all fun c => c == ' ' || isBreak c

/-- The end of a line or of the text. -/
def isLineEnd (c : Option Char) : Bool := c.all isBreak

/-- A character of a directive name, an anchor or a tag handle. -/
def isNameChar (c : Char) : Bool := c.isAlphanum || c == '-' || c == '_'

/-- A character that YAML allows. -/
def isAllowed (c : Char) : Bool :=
  let n := c.toNat
  n == 9 || n == 10 || n == 13 || (32 ≤ n && n ≤ 126) || n == 0x85 || (0xA0 ≤ n && n ≤ 0xD7FF)
    || (0xE000 ≤ n && n ≤ 0xFFFD) || 0x10000 ≤ n

end TypedApi.Yaml
