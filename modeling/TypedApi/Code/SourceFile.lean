import TypedApi.Text.Blank

/-! # Generated files

A generated file is a path below the output directory with a text. The text starts with a header
that switches linters off; its sections are separated by empty lines.
-/
namespace TypedApi.Code

/-- A file of the output. -/
structure SourceFile where
  /-- The path below the output directory. -/
  path : String
  content : String
deriving DecidableEq, Repr

/-- The lines at the top of every file. -/
def header : String := "/* tslint:disable */\n/* eslint-disable */\n"

/-- A section without line feeds at its ends. -/
def trimFeeds (section_ : String) : String :=
  let cs := section_.toList.dropWhile (· == '\n')
  .ofList (cs.reverse.dropWhile (· == '\n')).reverse

/-- The text of a file with the given sections; blank ones are left out. -/
def fileText (sections : List String) : String :=
  let kept := (sections.filter fun s => !Text.isBlankText s).map trimFeeds
  header ++ "\n" ++ "\n\n".intercalate kept ++ "\n"

/-- The text with the given lines. -/
def joinLines (lines : List String) : String :=
  "\n".intercalate lines

end TypedApi.Code
