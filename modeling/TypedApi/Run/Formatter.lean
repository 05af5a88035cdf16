import TypedApi.Program.Basic
import TypedApi.Run.State

/-! # Formatting

The written files may be handed to a formatter: a program of its own, of which only the outcome
matters here.
-/
namespace TypedApi

namespace Formatter

/-- The name of the program that formats. -/
def name : String := "npx"

/-- The arguments of the program that formats. -/
def arguments : List String :=
  ["--no-install", "prettier", "--write", "--parser", "typescript", "."]

/-- What is said about a failure that the program said nothing about. -/
def silentFailure (status : Nat) : String :=
  "Command '" ++ textsShown (name :: arguments) ++ "' returned non-zero exit status "
    ++ toString status ++ "."

/-- What is said about a failure: the errors of the program, or else its output. -/
def failureText (r : ProgramReport) : String :=
  match Text.trimmed? r.errors, Text.trimmed? r.output with
  | some errors, _ => errors
  | none, some output => output
  | none, none => silentFailure r.status

/-- Formats the files of an output directory. -/
def format (program : Program) (directory : Path) : Run Unit := do
  let s ← get
  let notRun (kind : SystemErrorKind) (at_ : String) : Failure :=
    .output (.formatterNotRun directory.text ⟨kind, at_⟩)
  match s.files.locate directory with
  | .error kind => throw (notRun kind directory.text)
  | .ok l =>
    let (files, outcome) := program arguments l s.files
    set { s with files := files }
    match outcome with
    | .error kind => throw (notRun kind name)
    | .ok r =>
      if r.status == 0 then return ()
      else throw (.output (.formatterFailed directory.text (failureText r)))

end Formatter
end TypedApi
