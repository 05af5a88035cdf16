import TypedApi.Text.Order

/-! # File trees

A file holds data and may be a program; a directory holds files and directories under names.
`at?` is the view of a tree: what stands at a location. Every change is a `put` or an `erase`.
-/
namespace TypedApi

/-- A file or a directory with all that is in it. -/
inductive FileTree where
  | file (data : ByteArray) (executable : Bool)
  | directory (entries : List (String × FileTree))

/-- The names that lead from the root of a tree to a place in it. -/
abbrev Location := List String

namespace FileTree

/-- The entries of a directory with the entry `name` set. -/
def setEntry (name : String) (t : FileTree) (entries : List (String × FileTree)) :
    List (String × FileTree) :=
  (name, t) :: entries.filter fun e => e.1 != name

/-- What stands at a location. -/
def at? (t : FileTree) : Location → Option FileTree
  | [] => some t
  | name :: rest =>
    match t with
    | .file _ _ => none
    | .directory entries =>
      match entries.lookup name with
      | some child => child.at? rest
      | none => none

/-- The tree with `new` at a location whose directory exists. -/
def put (new : FileTree) (t : FileTree) : Location → FileTree
  | [] => new
  | name :: rest =>
    match t with
    | .file _ _ => t
    | .directory entries =>
      match entries.lookup name with
      | some child => .directory (setEntry name (put new child rest) entries)
      | none => if rest.isEmpty then .directory (setEntry name new entries) else t

/-- The tree without what stands at a location. -/
def erase (t : FileTree) : Location → FileTree
  | [] => t
  | name :: rest =>
    match t with
    | .file _ _ => t
    | .directory entries =>
      if rest.isEmpty then .directory (entries.filter fun e => e.1 != name)
      else match entries.lookup name with
        | some child => .directory (setEntry name (erase child rest) entries)
        | none => t

/-- Whether a tree is a directory. -/
def isDirectory : FileTree → Bool
  | .directory _ => true
  | .file _ _ => false

@[simp] theorem at?_nil (t : FileTree) : t.at? [] = some t := by
  cases t <;> rfl

/-! ## Listings -/

mutual

/-- The lines of a listing of a tree at `path`: a slash ends a directory, and the number of its
bytes follows a file. -/
def lines (path : String) : FileTree → List String
  | .file data _ => [path ++ " " ++ toString data.size]
  | .directory entries => (path ++ "/") :: entryLines (path ++ "/") entries

/-- The lines of a listing of the entries of a directory. -/
def entryLines (lead : String) : List (String × FileTree) → List String
  | [] => []
  | (name, t) :: rest => lines (lead ++ name) t ++ entryLines lead rest

end

/-- All that is in a directory, in the order of the lines. -/
def listing : FileTree → List String
  | .file _ _ => []
  | .directory entries => Text.sorted (entryLines "" entries)

end FileTree
end TypedApi
