import TypedApi.Document.Source
import TypedApi.Output.ContentHash
import TypedApi.Run.Formatter
import TypedApi.Run.OutputDirectory

/-! # Runs

A run generates the files of a document into an output directory. It is skipped when the
directory holds the files of the same document and mode already, which the hash tells.
-/
namespace TypedApi

/-- What a run is asked to do. -/
structure Request where
  input : Path
  output : Path
  /-- The mode as it was given, which need not be one. -/
  mode : Value
  /-- Whether to generate even if the output is up to date. -/
  force : Bool
  /-- Whether to format the written files. -/
  format : Bool

/-- What a run did. -/
structure Outcome where
  output : String
  /-- The paths of the written files. -/
  written : List String
  warnings : List String
  skipped : Bool
deriving DecidableEq, Repr

namespace Run

/-- The text of a document. -/
def documentText (files : FileSystem) (input : Path) : Except Failure String :=
  match files.readText input with
  | .ok text => .ok text
  | .error .notUtf8 => .error (.defect .notUtf8)
  | .error (.system e) => .error (.document (.unreadable input.text e))

/-- The name of a mode, which is hashed. -/
def modeName (mode : Value) : Except Failure String :=
  match mode.text? with
  | some name => .ok name
  | none => .error (.defect .modeNotText)

/-- Generates and writes the files of a document whose text is known. -/
def generate (formatter : Program) (r : Request) (text hash : String) : Run Outcome := do
  let document ← ofExcept (Source.document ⟨r.input.text, text⟩)
  let tree ← ofNoted (Generation.generate r.mode (.map document))
  checkPath r.output
  let written ← OutputDirectory.write r.output tree.files hash
  report (.filesWritten written.length r.output.text)
  if r.format then Formatter.format formatter r.output
  return ⟨r.output.text, written.map Path.text, tree.warnings, false⟩

/-- Whether the output of a request is the one with the given hash. -/
def isUpToDate (r : Request) (hash : String) : Run Bool := do
  if r.force then return false
  checkPath r.output
  return (← ofExcept (OutputDirectory.storedHash (← get).files r.output)) == some hash

/-- Does what a request asks for. -/
def perform (formatter : Program) (r : Request) : Run Outcome := do
  checkPath r.input
  let text ← ofExcept (documentText (← get).files r.input)
  let hash := ContentHash.ofText (← ofExcept (modeName r.mode)) text
  if ← isUpToDate r hash then
    report (.upToDate r.output.text r.input.text)
    return ⟨r.output.text, [], [], true⟩
  else generate formatter r text hash

end Run
end TypedApi
