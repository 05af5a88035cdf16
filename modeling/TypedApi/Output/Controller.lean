import TypedApi.Operation.Signature
import TypedApi.Output.Model

/-! # Controllers of the server

The file of a tag on the server: an abstract class with one method for each operation, and a
method that binds every route. A route reads the body and the parameters, calls the method of its
operation and writes the result.
-/
namespace TypedApi.Controller

/-- The name of the result in a route. -/
def resultName : String := "result"

/-- What a route calls. -/
def methodCall (signature : Signature) : String :=
  "this." ++ signature.methodName ++ "(" ++ Text.commaList signature.argumentNames ++ ")"

/-- The lines that read the body. -/
def bodyLines (body : BodySpec) : Emission (List String) := do
  let decoded ← body.slot.fromJson "req.body" (Code.contextLiteral body.place none)
  return ["\t\t\t\tconst body = " ++ decoded ++ ";"]

/-- The line that reads a parameter. -/
def parameterLine (parameter : ParameterSpec) : Emission String := do
  let holder := match parameter.location with
    | .path => "params"
    | .query => "query"
  let decoded ← parameter.slot.fromParam ("req." ++ holder ++ "." ++ parameter.name)
    (Code.contextLiteral parameter.place none)
  return "\t\t\t\tconst " ++ parameter.name ++ " = " ++ decoded ++ ";"

/-- The lines that read the parameters. -/
def parameterLines : List ParameterSpec → Emission (List String)
  | [] => return []
  | parameter :: rest => do
    let line ← parameterLine parameter
    let later ← parameterLines rest
    return line :: later

/-- The lines that call the method and write its result. -/
def callLines (signature : Signature) : Emission (List String) := do
  match signature.response with
  | none => return ["\t\t\t\tawait " ++ methodCall signature ++ ";"]
  | some response =>
    let call := "\t\t\t\tconst " ++ resultName ++ " = await " ++ methodCall signature ++ ";"
    if response.slot.hasPrinter then
      let printed ← response.slot.toJson resultName
      return [call, "\t\t\t\treturn this.printResponse(() => " ++ printed ++ ");"]
    else return [call, "\t\t\t\treturn " ++ resultName ++ ";"]

/-- The lines of the route of an operation. -/
def routeLines (signature : Signature) : Emission (List String) := do
  let operation := signature.operation
  let body ← match signature.body with
    | none => pure []
    | some body => bodyLines body
  let parameters ← parameterLines signature.parameters
  let call ← callLines signature
  return ["\t\tapp." ++ operation.method.key ++ "(" ++ Text.literal operation.url.route
      ++ ", (req: Request, res: Response) =>",
      "\t\t\tthis.handleResponse(res, (async () => \x7b"]
    ++ body ++ parameters ++ call ++
    ["\t\t\t\x7d)()),",
     "\t\t);"]

/-- The lines of the routes of some operations. -/
def allRouteLines : List Signature → Emission (List String)
  | [] => return []
  | signature :: rest => do
    let lines ← routeLines signature
    let later ← allRouteLines rest
    return lines ++ later

/-- The declaration of the method of an operation. -/
def declaration (signature : Signature) : List String :=
  Code.docComment "\t" (signature.docLines []) ++
    ["\tabstract " ++ signature.methodName ++ "(" ++ Text.commaList signature.arguments
       ++ "): Promise<" ++ signature.returnType ++ ">;",
     ""]

/-- What every controller imports. -/
def commonImports : List Code.Import :=
  [⟨.generated none "base-api", "BaseApi"⟩, ⟨.package "express", "Express"⟩,
   ⟨.package "express", "Request"⟩, ⟨.package "express", "Response"⟩]

/-- The lines of the controller of a tag. -/
def lines (registry : Registry) (tag : Identifier) (group : TagGroup) :
    Emission (List String) := do
  commonImports.forM Noted.note
  let signatures ← Signature.ofGroup registry group
  let routes ← allRouteLines signatures
  let description := ((group.description).map Text.descriptionLines).getD []
  return Code.descriptionComment "" ((tag.display ++ " api.") :: "" :: description)
    ++ ["export abstract class " ++ tag.upperCamel ++ "Api extends BaseApi \x7b"]
    ++ signatures.flatMap declaration
    ++ ["\t/** Register all endpoints. */",
        "\tregisterEndpoints(app: Express): void \x7b"]
    ++ routes ++ ["\t\x7d", "\x7d"]

/-- The file of the controller of a tag. -/
def file (registry : Registry) (group : TagGroup) : Except Failure Code.SourceFile := do
  let tag ← Identifier.ofSpaced group.name
  Emission.toFile (some .api) ("api/" ++ tag.kebab ++ ".ts") (lines registry tag group)

end TypedApi.Controller
