import TypedApi.Files.SystemError

/-! # Faults of documents and of the output

Why a document cannot be read or is not supported, and why the generated files cannot be written.
-/
namespace TypedApi

/-- Why a document is not accepted. -/
inductive DocumentFault where
  | unreadable (path : String) (cause : SystemError)
  /-- The text from `source` is no YAML. -/
  | notYaml (source : String)
  | notAMapping (kindName : String)
  | missingVersion
  | malformedVersion (version : String)
  | oldVersion (version : String)
  /-- The document from `source` breaks the rules of OpenAPI. -/
  | notOpenApi (source : String)
  | missingComponents
  | missingSchemas
  | missingPaths
  | tagsNotList
deriving DecidableEq, Repr

/-- The wording of a document fault. -/
def DocumentFault.message : DocumentFault → String
  | .unreadable path cause => "Failed to read OpenAPI file " ++ path ++ ": " ++ cause.message
  | .notYaml source => "Failed to parse YAML in " ++ source
  | .notAMapping kindName =>
    "OpenAPI document must deserialize to a mapping, got <class '" ++ kindName ++ "'>"
  | .missingVersion => "Missing or invalid 'openapi' version field"
  | .malformedVersion version => "Unable to parse OpenAPI version: " ++ version
  | .oldVersion version =>
    "Unsupported OpenAPI version " ++ version ++ "; only v3+ is supported"
  | .notOpenApi source => "OpenAPI schema validation failed for " ++ source
  | .missingComponents => "Expected components to be defined"
  | .missingSchemas => "Expected components.schemas to be defined"
  | .missingPaths => "OpenAPI document missing 'paths' object"
  | .tagsNotList => "Expected top-level 'tags' to be a list"

/-- Why the generated files cannot be written. -/
inductive OutputFault where
  | unreadableHash (directory : String) (cause : SystemError)
  | notADirectory (path : String)
  /-- The directory holds files that this program did not write. -/
  | foreignDirectory (directory : String)
  | notCleared (directory : String) (cause : SystemError)
  | notCreated (directory : String) (cause : SystemError)
  | notWritten (path : String) (cause : SystemError)
  | formatterNotRun (directory : String) (cause : SystemError)
  | formatterFailed (directory report : String)
deriving DecidableEq, Repr

/-- The wording of an output fault. -/
def OutputFault.message : OutputFault → String
  | .unreadableHash directory cause =>
    "Failed to read .openapi-hash in " ++ directory ++ ": " ++ cause.message
  | .notADirectory path => "Output path exists and is not a directory: " ++ path
  | .foreignDirectory directory =>
    "Output directory " ++ directory ++ " is not empty and was not generated by this tool"
  | .notCleared directory cause =>
    "Failed to clear output directory " ++ directory ++ ": " ++ cause.message
  | .notCreated directory cause =>
    "Failed to create output directory " ++ directory ++ ": " ++ cause.message
  | .notWritten path cause => "Failed to write file " ++ path ++ ": " ++ cause.message
  | .formatterNotRun directory cause =>
    "Failed to execute prettier for " ++ directory ++ ": " ++ cause.message
  | .formatterFailed directory report => "prettier failed for " ++ directory ++ ": " ++ report

end TypedApi
