import TypedApi.Text.Literal
import TypedApi.Text.Order

/-! # Names in generated code

A name that is an identifier stands as it is, any other as a string literal: as the key of a
member, and in brackets where the member is accessed.
-/
namespace TypedApi.Code

/-- An ASCII letter, the underscore or the dollar sign. -/
def isNameStart (c : Char) : Bool :=
  c.isAlpha || c == '_' || c == '$'

/-- A character that may follow in an identifier: also a digit. -/
def isNamePart (c : Char) : Bool :=
  c.isAlphanum || c == '_' || c == '$'

/-- Whether a name is an identifier, a line feed allowed after it. -/
def isIdentifier (name : String) : Bool :=
  match name.toList with
  | [] => false
  | c :: rest =>
    isNameStart c && (rest.dropWhile isNamePart == [] || rest.dropWhile isNamePart == ['\n'])

/-- A name as the key of a member. -/
def memberKey (name : String) : String :=
  if isIdentifier name then name else Text.literal name

/-- The member of `target` with the given name. -/
def memberAccess (target name : String) : String :=
  if isIdentifier name then target ++ "." ++ name
  else target ++ "[" ++ Text.literal name ++ "]"

/-- An array of string literals that names a place at run time, after the elements of the array
`parent`, if there is one. -/
def contextLiteral (segments : List String) (parent : Option String) : String :=
  "[" ++ Text.commaList (parent.toList.map ("..." ++ ·) ++ segments.map Text.literal) ++ "]"

end TypedApi.Code
