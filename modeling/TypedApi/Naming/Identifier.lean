import TypedApi.Failure
import TypedApi.Text.Lines

/-! # Identifiers

A schema or tag name is a list of words, and generated code spells it in four ways: types start
each word with a capital, variables all but the first, file names join small words with hyphens,
and comments show the words as they are. A schema name is split before each capital that follows
no capital, a tag name at its blanks.
-/
namespace TypedApi

/-- A name in the spellings of generated code. -/
structure Identifier where
  /-- The name of a variable. -/
  lowerCamel : String
  /-- The name of a type. -/
  upperCamel : String
  /-- The words as they were given. -/
  display : String
  /-- The name of a file. -/
  kebab : String
deriving DecidableEq, Repr

namespace Identifier

/-- Puts a character in front of the first word. -/
def intoFirst (c : Char) : List (List Char) → List (List Char)
  | [] => [[c]]
  | word :: words => (c :: word) :: words

@[simp] theorem flatten_intoFirst (c : Char) (words : List (List Char)) :
    (intoFirst c words).flatten = c :: words.flatten := by
  cases words <;> simp [intoFirst]

/-- The words of a name that is split before each capital that follows no capital. -/
def humps : List Char → List (List Char)
  | [] => []
  | [c] => [[c]]
  | c :: d :: rest =>
    if !c.isUpper && d.isUpper then [c] :: humps (d :: rest)
    else intoFirst c (humps (d :: rest))

/-- Splitting neither adds nor drops a character. -/
@[simp] theorem flatten_humps (cs : List Char) : (humps cs).flatten = cs := by
  fun_induction humps cs <;> simp_all

/-- A word with its ASCII capitals in lower case. -/
def lowered (word : List Char) : List Char :=
  word.map Char.toLower

/-- A word with an ASCII capital in front and the rest in lower case. -/
def capitalized (word : List Char) : List Char :=
  match lowered word with
  | [] => []
  | c :: rest => c.toUpper :: rest

/-- A word of a name: letters, digits and underscores of ASCII, and perhaps a line feed after
them. -/
def isNameWord (word : List Char) : Bool :=
  Text.isWordOf Text.isPlainWordChar word

/-- The spellings of a name with the given words. -/
def spell (words : List (List Char)) : Identifier where
  lowerCamel := .ofList (lowered (words.headD []) ++ words.tail.flatMap capitalized)
  upperCamel := .ofList (words.flatMap capitalized)
  display := " ".intercalate (words.map String.ofList)
  kebab := "-".intercalate (words.map fun word => .ofList (lowered word))

/-- The identifier of the name `raw`, which was split into `words`. -/
def ofWords (raw : String) (words : List (List Char)) : Except Failure Identifier :=
  match words.find? (fun word => !isNameWord word) with
  | some word => .error (.naming (.unexpectedCharacters raw (.ofList word)))
  | none =>
    match words with
    | (c :: _) :: _ =>
      if c.isDigit then .error (.naming (.leadingDigit raw)) else .ok (spell words)
    | _ => .error (.defect .noWords)

/-- The identifier of a schema name. -/
def ofHumped (raw : String) : Except Failure Identifier :=
  let text := (Text.trim raw).toList
  if text.isEmpty then .error (.naming (.emptyHumped raw)) else ofWords raw (humps text)

/-- The identifier of a tag name. -/
def ofSpaced (raw : String) : Except Failure Identifier :=
  if Text.isBlankText raw then .error (.naming (.emptySpaced raw))
  else ofWords raw (Text.blankSeparated raw)

end Identifier
end TypedApi
