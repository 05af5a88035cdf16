import TypedApi.Files.FileSystem

/-! # Programs

A program is started in a directory, and what matters of it is what it leaves behind: changed
files, two texts and a status.
-/
namespace TypedApi

/-- What a program leaves when it ends. -/
structure ProgramReport where
  /-- Zero stands for success. -/
  status : Nat
  output : String
  errors : String
deriving DecidableEq, Repr

/-- A program that is run with arguments in a directory. It may change any files, and it may not
start at all. -/
abbrev Program :=
  List String → Location → FileSystem → FileSystem × Except SystemErrorKind ProgramReport

/-- The program that is not there. -/
def Program.absent : Program := fun _ _ files => (files, .error .notFound)

end TypedApi
