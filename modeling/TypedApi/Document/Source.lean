import TypedApi.Document.Parts
import TypedApi.OpenApi.Conformance
import TypedApi.Yaml.Document

/-! # Documents as text

A document is written in YAML. It must declare a supported version and keep the rules of OpenAPI.
-/
namespace TypedApi

/-- A text that a document is to be read from. -/
structure Source where
  /-- Where the text comes from. -/
  name : String
  text : String
deriving DecidableEq, Repr

namespace Source

/-- The value that the text denotes. -/
def value (s : Source) : Except Failure Value :=
  match Yaml.valueOfText s.text with
  | .ok v => .ok v
  | .error .meaningless => .error (.defect .meaninglessScalar)
  | .error _ => .error (.document (.notYaml s.name))

/-- Refuses a mapping that is no supported document. -/
def check (s : Source) (document : Members) : Except Failure Unit := do
  expectSupported (← Members.declaredVersion document)
  if !OpenApi.Kind.document.accepts document then
    throw (.document (.notOpenApi s.name))

/-- The document that the text denotes. -/
def document (s : Source) : Except Failure Members := do
  match ← s.value with
  | .map members =>
    s.check members
    return members
  | v => throw (.document (.notAMapping v.kindName))

end Source
end TypedApi
