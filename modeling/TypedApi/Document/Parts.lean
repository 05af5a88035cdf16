import TypedApi.Failure
import TypedApi.Number.Numeral

/-! # The parts of an OpenAPI document

The version that a document declares, and the members that code is generated from.
-/
namespace TypedApi

/-- The version that the `openapi` member of a document declares. -/
def Members.declaredVersion (document : Members) : Except Failure String :=
  match (document.getD "openapi").text?.bind Text.trimmed? with
  | some version => .ok version
  | none => .error (.document .missingVersion)

/-- Refuses the versions before the third. -/
def expectSupported (version : String) : Except Failure Unit :=
  match Numeral.integer? 10 (version.toList.takeWhile (· != '.')) with
  | none => .error (.document (.malformedVersion version))
  | some major => if major < 3 then .error (.document (.oldVersion version)) else .ok ()

/-- The members of a document that code is generated from. -/
structure DocumentParts where
  schemas : Members
  paths : Members
  tags : List Value

namespace DocumentParts

/-- The parts of a document with the given members. -/
def ofMembers (document : Members) : Except Failure DocumentParts :=
  match document.getD "components" with
  | .map components =>
    match Members.getD "schemas" components with
    | .map schemas =>
      match document.getD "paths" with
      | .map paths =>
        match document.get? "tags" with
        | none => .ok ⟨schemas, paths, []⟩
        | some (.list tags) => .ok ⟨schemas, paths, tags⟩
        | some _ => .error (.document .tagsNotList)
      | _ => .error (.document .missingPaths)
    | _ => .error (.document .missingSchemas)
  | _ => .error (.document .missingComponents)

/-- The parts of a document. -/
def ofDocument : Value → Except Failure DocumentParts
  | .map members => ofMembers members
  | _ => .error (.defect .documentNotMapping)

end DocumentParts
end TypedApi
