import TypedApi.Text.Blank

/-! # Lines

Where a text breaks into lines, and the lines themselves. A break ends the line before it, so
that a text which ends in a break has no empty last line.
-/
namespace TypedApi.Text

/-- A character that ends a line. A carriage return with a line feed is one break. -/
def isLineBreak (c : Char) : Bool :=
  let n := c.toNat
  (10 ≤ n && n ≤ 13) || (28 ≤ n && n ≤ 30) || n == 0x85 || n == 0x2028 || n == 0x2029

/-- The lines of a text of which `line`, in reverse, was read since the last break. -/
def linesFrom (line : List Char) : List Char → List (List Char)
  | [] => if line.isEmpty then [] else [line.reverse]
  | '\r' :: '\n' :: rest => line.reverse :: linesFrom [] rest
  | c :: rest =>
    if isLineBreak c then line.reverse :: linesFrom [] rest else linesFrom (c :: line) rest

/-- The lines of `s` without the breaks that end them. -/
def lines (s : String) : List String :=
  (linesFrom [] s.toList).map .ofList

/-- The lines of a description: the blanks at its two ends are dropped first. -/
def descriptionLines (s : String) : List String :=
  lines (trim s)

/-- `cs` with a line feed in place of each carriage return, alone or with a line feed. -/
def feedsFrom : List Char → List Char
  | [] => []
  | '\r' :: '\n' :: rest => '\n' :: feedsFrom rest
  | c :: rest => (if c == '\r' then '\n' else c) :: feedsFrom rest

/-- `s` with a line feed at the end of each line. -/
def withLineFeeds (s : String) : String :=
  .ofList (feedsFrom s.toList)

/-- The maximal runs without a blank, when `word`, in reverse, was read since the last one. -/
def wordsFrom (word : List Char) : List Char → List (List Char)
  | [] => if word.isEmpty then [] else [word.reverse]
  | c :: rest =>
    if isBlank c then
      if word.isEmpty then wordsFrom [] rest else word.reverse :: wordsFrom [] rest
    else wordsFrom (c :: word) rest

/-- The maximal runs of `s` without a blank. -/
def blankSeparated (s : String) : List (List Char) :=
  wordsFrom [] s.toList

end TypedApi.Text
