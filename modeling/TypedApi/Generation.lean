import TypedApi.Document.Parts
import TypedApi.Output.Client
import TypedApi.Output.Controller
import TypedApi.Output.Index
import TypedApi.Support.File

/-! # Generation

All files that are generated from a document: a model for each component schema, a controller or
a client for each tag with operations, the index of these and the support files. Everything is
built before anything is written.
-/
namespace TypedApi

/-- What a run reports about its progress. -/
inductive Progress where
  | modelsEmitted (count : Nat)
  | tagFilesEmitted (count : Nat) (mode : Mode)
  | fileWritten (path : String)
  | filesWritten (count : Nat) (directory : String)
  | upToDate (directory input : String)
deriving DecidableEq, Repr

/-- The files generated from a document. -/
structure OutputTree where
  files : List Code.SourceFile
  warnings : List String
deriving DecidableEq, Repr

namespace Generation

/-- The model files of the component schemas, in document order. -/
def modelFiles (registry : Registry) : Members → Except Failure (List Code.SourceFile)
  | [] => .ok []
  | (.text raw, schema) :: rest => do
    let file ← Model.file registry raw schema
    let later ← modelFiles registry rest
    return file :: later
  | _ :: _ => .error (.defect .nameNotText)

/-- The file of a tag. -/
def tagFile (mode : Mode) (registry : Registry) (group : TagGroup) :
    Except Failure Code.SourceFile :=
  match mode with
  | .api => Controller.file registry group
  | .client => Client.file registry group

/-- The names that the file and the class of a tag take. -/
def takenNames (tag : Identifier) : List String :=
  [tag.kebab, tag.upperCamel].eraseDups

/-- Records the names of a tag, where `taken` maps names to the tags that have them. -/
def take (taken : List (String × String)) (tagName : String) :
    List String → Except Failure (List (String × String))
  | [] => .ok taken
  | name :: rest =>
    match taken.lookup name with
    | some first => .error (.naming (.tagClash first tagName name))
    | none => take ((name, tagName) :: taken) tagName rest

/-- The warning about a tag without operations. -/
def unusedTag (mode : Mode) (tagName : String) : String :=
  "Tag " ++ Text.quoted tagName ++ " has no operations; no " ++ mode.name
    ++ " file was generated"

/-- What the tags of a document contribute to the output. -/
structure TagOutput where
  files : List Code.SourceFile
  tags : List Identifier
  warnings : List String
deriving DecidableEq, Repr

/-- The output for some tags, when the names `taken` belong to others. -/
def tagOutput (mode : Mode) (registry : Registry) (taken : List (String × String)) :
    List TagGroup → Except Failure TagOutput
  | [] => .ok ⟨[], [], []⟩
  | group :: rest =>
    if group.operations.isEmpty then do
      let later ← tagOutput mode registry taken rest
      return { later with warnings := unusedTag mode group.name :: later.warnings }
    else do
      let tag ← Identifier.ofSpaced group.name
      let taken ← take taken group.name (takenNames tag)
      let file ← tagFile mode registry group
      let later ← tagOutput mode registry taken rest
      return ⟨file :: later.files, tag :: later.tags, later.warnings⟩

/-- The groups of a document in the order of the tag names. -/
def sortedGroups (groups : List TagGroup) : List TagGroup :=
  Text.sortedBy (·.name) groups

/-- The files generated from the parts of a document. -/
def ofParts (mode : Mode) (parts : DocumentParts) : Noted Progress OutputTree := do
  let registry ← Noted.ofExcept (Registry.ofSchemas parts.schemas)
  let groups ← Noted.ofExcept (Operation.grouped parts.paths parts.tags)
  let models ← Noted.ofExcept (modelFiles registry parts.schemas)
  Noted.note (.modelsEmitted parts.schemas.length)
  let tags ← Noted.ofExcept (tagOutput mode registry [] (sortedGroups groups))
  Noted.note (.tagFilesEmitted tags.tags.length mode)
  let index ← Noted.ofExcept (Index.file mode tags.tags)
  return ⟨models ++ tags.files ++ [index] ++ Support.files mode, tags.warnings⟩

/-- The files generated from a document in a mode. -/
def ofDocument (mode : Mode) (document : Value) : Noted Progress OutputTree := do
  let parts ← Noted.ofExcept (DocumentParts.ofDocument document)
  ofParts mode parts

/-- The mode that a value names. -/
def mode? (mode : Value) : Except Failure Mode :=
  match mode with
  | .text name =>
    match Mode.ofName? name with
    | some found => .ok found
    | none => .error (.unknownMode mode)
  | _ => .error (.unknownMode mode)

/-- The files generated from a document in the mode that a value names. -/
def generate (mode : Value) (document : Value) : Noted Progress OutputTree := do
  let mode ← Noted.ofExcept (mode? mode)
  ofDocument mode document

end Generation
end TypedApi
