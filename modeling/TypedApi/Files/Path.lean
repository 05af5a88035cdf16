import TypedApi.Files.SystemError
import TypedApi.Text.Separated

/-! # Paths

A path is a list of names that leads from the working directory, or from the root, to a file.
Names that lead nowhere, the empty one and the single dot, are dropped; two dots stay and lead to
the directory around. So there are several paths to a file, but only one text of each path.
-/
namespace TypedApi

/-- A path of the file system. -/
structure Path where
  /-- The slashes in front of a path that starts at the root. -/
  root : String
  parts : List String
deriving DecidableEq, Repr

namespace Path

/-- The name that leads to the directory around. -/
def up : String := ".."

/-- The names in a text. -/
def names (cs : List Char) : List String :=
  ((Text.separated '/' cs).map String.ofList).filter fun name => name != "" && name != "."

/-- The path that a text writes. A path from the root starts with one slash; two are kept, and
more count as one. -/
def ofText (s : String) : Path :=
  let cs := s.toList
  let slashes := (cs.takeWhile (· == '/')).length
  ⟨if slashes == 0 then "" else if slashes == 2 then "//" else "/", names cs⟩

/-- The text of a path. -/
def text (p : Path) : String :=
  if p.root == "" && p.parts.isEmpty then "." else p.root ++ "/".intercalate p.parts

/-- The path to the directory that holds the last name. -/
def parent (p : Path) : Path := { p with parts := p.parts.dropLast }

/-- The path to a file below. -/
def child (p : Path) (below : String) : Path :=
  { p with parts := p.parts ++ names below.toList }

/-- The names from the root to where a path leads from a directory, if no name on the way leads
elsewhere. -/
def namesFrom (current : List String) (p : Path) : List String :=
  p.parts.foldl (fun names name => if name == up then names.dropLast else names ++ [name])
    (if p.root == "" then current else [])

/-- Whether a path holds the character that no path may hold. -/
def hasNul (p : Path) : Bool := p.parts.any fun name => name.toList.any fun c => c.toNat == 0

/-- The longest name in bytes. -/
def nameLimit : Nat := 255

/-- The longest text of a path in bytes. -/
def textLimit : Nat := 4095

theorem length_parent_lt {p : Path} (h : p.parts ≠ []) :
    p.parent.parts.length < p.parts.length := by
  cases hp : p.parts with
  | nil => exact absurd hp h
  | cons a rest => simp [parent, hp]

end Path
end TypedApi
