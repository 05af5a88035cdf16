import TypedApi.Text.Quoted

/-! # Errors of the file system

Why a file operation fails, with the path that was named in it.
-/
namespace TypedApi

/-- The reasons for which a file operation fails. -/
inductive SystemErrorKind where
  | notFound
  /-- A program in no form that can be run. -/
  | notAProgram
  | accessDenied
  | alreadyExists
  | notADirectory
  | isADirectory
  | invalidArgument
  | nameTooLong
  | notEmpty
deriving DecidableEq, Repr

namespace SystemErrorKind

/-- The number of a reason. -/
def number : SystemErrorKind → Nat
  | .notFound => 2
  | .notAProgram => 8
  | .accessDenied => 13
  | .alreadyExists => 17
  | .notADirectory => 20
  | .isADirectory => 21
  | .invalidArgument => 22
  | .nameTooLong => 36
  | .notEmpty => 39

/-- A reason in words. -/
def words : SystemErrorKind → String
  | .notFound => "No such file or directory"
  | .notAProgram => "Exec format error"
  | .accessDenied => "Permission denied"
  | .alreadyExists => "File exists"
  | .notADirectory => "Not a directory"
  | .isADirectory => "Is a directory"
  | .invalidArgument => "Invalid argument"
  | .nameTooLong => "File name too long"
  | .notEmpty => "Directory not empty"

end SystemErrorKind

/-- A failed file operation. -/
structure SystemError where
  kind : SystemErrorKind
  /-- The path that the operation was given. -/
  path : String
deriving DecidableEq, Repr

/-- The number, the reason and the path of a failed file operation. -/
def SystemError.message (e : SystemError) : String :=
  "[Errno " ++ toString e.kind.number ++ "] " ++ e.kind.words ++ ": " ++ Text.quoted e.path

end TypedApi
