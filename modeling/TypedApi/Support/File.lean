import TypedApi.Code.SourceFile
import TypedApi.Output.Mode
import TypedApi.Support.BaseApi
import TypedApi.Support.BaseClient
import TypedApi.Support.Validate

/-! # Support files

The files that generated code builds on. They are the same for every document.
-/
namespace TypedApi.Support

/-- The support file with the given lines. -/
def file (path : String) (lines : List String) : Code.SourceFile :=
  ⟨path, Code.header ++ "\n" ++ Code.joinLines lines⟩

/-- The support files of a mode. -/
def files : Mode → List Code.SourceFile
  | .api => [file "base-api.ts" baseApiLines, file "validate.ts" validateLines]
  | .client => [file "base-client.ts" baseClientLines, file "validate.ts" validateLines]

end TypedApi.Support
