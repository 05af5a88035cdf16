import TypedApi.Text.Lines

/-! # Documentation comments

A comment is written from lines. Empty lines at both ends are dropped and runs of them become one,
and nothing in a line can end the comment.
-/
namespace TypedApi.Code

/-- A line in which no comment ends. -/
def escapeEnd : List Char → List Char
  | [] => []
  | '*' :: '/' :: rest => '*' :: '\\' :: '/' :: escapeEnd rest
  | c :: rest => c :: escapeEnd rest

/-- A line of a comment. -/
def escapedLine (line : String) : String :=
  .ofList (escapeEnd line.toList)

/-- `lines` without the empty ones at its end. -/
def dropEmptyEnd : List String → List String
  | [] => []
  | line :: rest =>
    match dropEmptyEnd rest with
    | [] => if line == "" then [] else [line]
    | kept => line :: kept

/-- `lines` without the empty ones at both ends. -/
def dropEmptyEnds (lines : List String) : List String :=
  dropEmptyEnd (lines.dropWhile (· == ""))

/-- The lines of a block comment, where `afterEmpty` tells that an empty one was just written. -/
def blockLines (indent : String) (afterEmpty : Bool) : List String → List String
  | [] => []
  | line :: rest =>
    if line == "" then
      if afterEmpty then blockLines indent true rest
      else (indent ++ " *") :: blockLines indent true rest
    else (indent ++ " * " ++ escapedLine line) :: blockLines indent false rest

/-- The comment with the given lines; an absent line counts as an empty one. -/
def docComment (indent : String) (lines : List (Option String)) : List String :=
  match dropEmptyEnds (lines.map (·.getD "")) with
  | [] => []
  | [line] => [indent ++ "/** " ++ escapedLine line ++ " */"]
  | content => (indent ++ "/**") :: (blockLines indent false content ++ [indent ++ " */"])

/-- The comment of a description. -/
def descriptionComment (indent : String) (lines : List String) : List String :=
  docComment indent (lines.map some)

end TypedApi.Code
