import TypedApi.Operation.Signature
import TypedApi.Output.Model

/-! # Clients

The file of a tag on the client: a class with one method for each operation, which sends the
request and reads the response.
-/
namespace TypedApi.Client

/-- The support file of clients. -/
def baseModule : Code.Source := .generated none "base-client"

/-- The text for the argument that every method takes last. -/
def overrideConfigText : String :=
  "Client config variable overrides. Defaults to the baseConfig."

/-- The codec of the path parameter that a template names. -/
def pathSlot (signature : Signature) (name : String) : Except Failure Slot :=
  match signature.parameters.reverse.find? fun p => p.location = .path && p.name == name with
  | some parameter => .ok parameter.slot
  | none => .error (.defect (.noPathParameter name))

/-- The calls that build the path of a URL from the parts of the template. -/
def pathCalls (signature : Signature) : List PathPart → Emission String
  | [] => return ""
  | .literal text :: rest => do
    let later ← pathCalls signature rest
    return ".addLiteral(" ++ Text.literal text ++ ")" ++ later
  | .parameter name :: rest => do
    let slot ← Noted.ofExcept (pathSlot signature name)
    let printed ← slot.toJson name
    let later ← pathCalls signature rest
    return ".addPathParam(" ++ printed ++ ")" ++ later

/-- The calls that add the query parameters to a URL. -/
def queryCalls : List ParameterSpec → Emission String
  | [] => return ""
  | parameter :: rest => do
    let printed ← parameter.slot.toJson parameter.name
    let later ← queryCalls rest
    return ".addQuery(" ++ Text.literal parameter.name ++ ", " ++ printed ++ ")" ++ later

/-- The expression for the URL of a request. -/
def urlExpression (signature : Signature) : Emission String := do
  let url := signature.operation.url
  let query := signature.parameters.filter fun p => p.location = .query
  if !url.hasParameters && query.isEmpty then return Text.literal url.text
  else
    Noted.note ⟨baseModule, "UrlBuilder"⟩
    let path ← pathCalls signature url.parts
    let query ← queryCalls query
    return "new UrlBuilder()" ++ path ++ query ++ ".toString()"

/-- The line with the argument for the body. -/
def bodyLine (body : BodySpec) : Emission String := do
  return "\t\t\t" ++ (← body.slot.toJson "body") ++ ","

/-- The line with the function that reads the response. -/
def responseLine (response : BodySpec) : Emission String := do
  let decoded ← response.slot.fromJson "json" (Code.contextLiteral response.place none)
  return "\t\t\t(json: unknown) => " ++ decoded ++ ","

/-- The lines of the method of an operation. -/
def methodLines (signature : Signature) : Emission (List String) := do
  let arguments := signature.arguments ++ ["overrideConfig: Partial<ClientConfig> = \x7b\x7d"]
  let url ← urlExpression signature
  let body ← signature.body.toList.mapM bodyLine
  let response ← signature.response.toList.mapM responseLine
  return Code.docComment "\t" (signature.docLines [("overrideConfig", overrideConfigText)]) ++
    ["\t" ++ signature.methodName ++ "(" ++ Text.commaList arguments ++ "): Promise<"
       ++ signature.returnType ++ "> \x7b",
     "\t\treturn this.fetch(",
     "\t\t\toverrideConfig,",
     "\t\t\t" ++ Text.literal signature.operation.method.name ++ ",",
     "\t\t\t" ++ url ++ ","] ++ body ++ response ++
    ["\t\t);",
     "\t\x7d"]

/-- The lines of the methods of some operations, separated by empty lines. -/
def allMethodLines : List Signature → Emission (List String)
  | [] => return []
  | [signature] => methodLines signature
  | signature :: rest => do
    let lines ← methodLines signature
    let later ← allMethodLines rest
    return lines ++ "" :: later

/-- What every client imports. -/
def commonImports : List Code.Import :=
  [⟨baseModule, "BaseClient"⟩, ⟨baseModule, "ClientConfig"⟩]

/-- The lines of the client of a tag. -/
def lines (registry : Registry) (tag : Identifier) (group : TagGroup) :
    Emission (List String) := do
  commonImports.forM Noted.note
  let signatures ← Signature.ofGroup registry group
  let methods ← allMethodLines signatures
  let description := ((group.description).map Text.descriptionLines).getD []
  return Code.descriptionComment "" ((tag.display ++ " client.") :: "" :: description)
    ++ ["export class " ++ tag.upperCamel ++ "Client extends BaseClient \x7b"]
    ++ methods ++ ["\x7d"]

/-- The file of the client of a tag. -/
def file (registry : Registry) (group : TagGroup) : Except Failure Code.SourceFile := do
  let tag ← Identifier.ofSpaced group.name
  Emission.toFile (some .client) ("client/" ++ tag.kebab ++ ".ts") (lines registry tag group)

end TypedApi.Client
