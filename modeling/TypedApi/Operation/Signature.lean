import TypedApi.Code.Name
import TypedApi.Operation.Operation
import TypedApi.Schema.Conversion
import TypedApi.Text.Lines

/-! # Signatures

The signature of an operation is the method that generated classes give it: the name, the request
body, the parameters and the result, each with its codec. Server and client are written from the
same signatures.
-/
namespace TypedApi

/-- Where a parameter stands in a request. -/
inductive ParameterLocation where
  | path
  | query
deriving DecidableEq, Repr

namespace ParameterLocation

/-- The name of a location in a document. -/
def key : ParameterLocation → String
  | .path => "path"
  | .query => "query"

/-- The description of a parameter that has none of its own. -/
def description : ParameterLocation → String
  | .path => "Path param."
  | .query => "Query param."

end ParameterLocation

/-- A parameter of a method. -/
structure ParameterSpec where
  name : String
  location : ParameterLocation
  slot : Slot
  description : Option String
  place : Place

/-- A request body or a response body. -/
structure BodySpec where
  slot : Slot
  description : Option String
  place : Place

/-- The method of an operation. -/
structure Signature where
  operation : Operation
  methodName : String
  body : Option BodySpec
  parameters : List ParameterSpec
  response : Option BodySpec

namespace Signature

/-- The type of the awaited result. -/
def returnType (signature : Signature) : String :=
  match signature.response with
  | some response => response.slot.typeName
  | none => "void"

/-- The arguments with their types: the body, then the parameters. -/
def arguments (signature : Signature) : List String :=
  signature.body.toList.map (fun body => "body: " ++ body.slot.typeName)
    ++ signature.parameters.map fun p => p.name ++ ": " ++ p.slot.typeName

/-- The names of the arguments. -/
def argumentNames (signature : Signature) : List String :=
  signature.body.toList.map (fun _ => "body") ++ signature.parameters.map (·.name)

/-- A tag of a comment with its text below it. -/
def docTag (tag text : String) : List String :=
  tag :: (Text.descriptionLines text).map ("  " ++ ·)

/-- The tags of the comment of a method that has some extra arguments, given by name and text. -/
def docTags (signature : Signature) (extra : List (String × String)) : List String :=
  (signature.body.toList.flatMap fun body =>
      docTag "@param body" (body.description.getD "Request body."))
    ++ (signature.parameters.flatMap fun p =>
      docTag ("@param " ++ p.name) (p.description.getD p.location.description))
    ++ (extra.flatMap fun e => docTag ("@param " ++ e.1) e.2)
    ++ (signature.response.toList.flatMap fun response =>
      docTag "@return" (response.description.getD "Response body."))

/-- The lines of the comment of a method: summary, description and tags. -/
def docLines (signature : Signature) (extra : List (String × String)) : List (Option String) :=
  let operation := signature.operation
  operation.text? "summary" :: some ""
    :: (((operation.text? "description").map Text.descriptionLines).getD []).map some
    ++ some "" :: (signature.docTags extra).map some

/-! ## The name of the method -/

/-- Names that the generated classes use for members of their own. -/
def reservedMethods : List String :=
  ["constructor", "fetch", "handleResponse", "printResponse", "registerEndpoints"]

/-- Names that arguments of the generated methods already have. -/
def reservedArguments : List String := ["body", "overrideConfig"]

/-- The small ASCII letter of a capital. The Kelvin sign is a capital K. -/
def smallLetter? (c : Char) : Option Char :=
  if c.isUpper then some c.toLower else if c.toNat == 0x212A then some 'k' else none

/-- What follows the lead `lead` in `id`, if that is not nothing. -/
def restAfter? (lead id : String) : Option (Char × List Char) :=
  if lead.toList.isPrefixOf id.toList then
    match id.toList.drop lead.toList.length with
    | [] => none
    | c :: rest => some (c, rest)
  else none

/-- An operation ID without the name of its tag, where a point, an underscore or a capital
follows the name. -/
def withoutTag (tag : Identifier) (id : String) : String :=
  match (restAfter? tag.lowerCamel id).or (restAfter? tag.upperCamel id) with
  | none => id
  | some (c, rest) =>
    if c == '.' || c == '_' then .ofList rest
    else
      match smallLetter? c with
      | some small => .ofList (small :: rest)
      | none => id

/-- The name of the method of an operation. -/
def methodNameOf (tag : Identifier) (operation : Operation) : Except Failure String :=
  match operation.text? "operationId" with
  | none => .error (.operation (.missingOperationId operation.label))
  | some id =>
    let name := withoutTag tag id
    if !Code.isIdentifier name then
      .error (.operation (.invalidOperationId id operation.label))
    else if reservedMethods.contains name then
      .error (.operation (.reservedOperationId id operation.label))
    else .ok name

/-! ## Bodies -/

/-- The schema of the JSON content of `owner`. -/
def jsonSchema (owner : String) (content : Value) : Except Failure Value :=
  let schema := match content with
    | .map contents =>
      match Members.getD "application/json" contents with
      | .map media => Members.getD "schema" media
      | _ => .null
    | _ => .null
  if schema.isMap then .ok schema else .error (.operation (.missingJsonSchema owner))

/-- A body with JSON content. -/
def bodySpec (registry : Registry) (place : Place) (owner : String) (content : Value)
    (description : Value) : Emission BodySpec := do
  let schema ← Noted.ofExcept (jsonSchema owner content)
  let slot ← resolveSlot registry place schema true
  return ⟨slot, description.visibleText?, place⟩

/-- The request body of an operation. -/
def requestBody (registry : Registry) (method : String) (operation : Operation) :
    Emission (Option BodySpec) := do
  match operation.members.getD "requestBody" with
  | .null => return none
  | .map members =>
    if Members.has "$ref" members then .fail (.operation (.bodyReference method))
    else
      match Members.getD "required" members with
      | .bool true =>
        return some (← bodySpec registry [method, "requestBody"] ("request body of " ++ method)
          (Members.getD "content" members) (Members.getD "description" members))
      | _ => .fail (.operation (.optionalBody method))
  | _ => .fail (.operation (.bodyReference method))

/-- The responses by status, of which the last with a status counts. -/
def byStatus (responses : Members) : List (String × Value) :=
  responses.foldl (fun seen m =>
    let status := m.1.plain
    if seen.any (·.1 == status) then
      seen.map fun s => if s.1 == status then (status, m.2) else s
    else seen ++ [(status, m.2)]) []

/-- The body of the only response of an operation. -/
def responseBody (registry : Registry) (method : String) (operation : Operation) :
    Emission (Option BodySpec) := do
  match operation.members.getD "responses" with
  | .map responses =>
    let statuses := byStatus responses
    let others := (statuses.map (·.1)).filter (· != "200")
    match (statuses.lookup "200").getD .null with
    | .null => .fail (.operation (.missingOkResponse method))
    | response =>
      if !others.isEmpty then
        .fail (.operation (.unexpectedResponses method (Text.sorted others)))
      else
        match response with
        | .map members =>
          if Members.has "$ref" members then .fail (.operation (.responseReference method))
          else
            match Members.getD "content" members with
            | .null => return none
            | content =>
              return some (← bodySpec registry [method, "200", "responseBody"]
                ("200 response of " ++ method) content (Members.getD "description" members))
        | _ => .fail (.operation (.responseReference method))
  | _ => .fail (.operation (.missingResponses method))

/-! ## Parameters -/

/-- The name of a parameter: an identifier that no other argument has. -/
def parameterName (method : String) (parameter : Members) : Except Failure String :=
  let found := parameter.getD "name"
  match found.text? with
  | some name =>
    if !Code.isIdentifier name || reservedArguments.contains name then
      .error (.operation (.invalidParameterName found method))
    else .ok name
  | none => .error (.operation (.invalidParameterName found method))

/-- The location of a parameter. -/
def parameterLocation (method name : String) (parameter : Members) :
    Except Failure ParameterLocation :=
  match parameter.getD "in" with
  | .text "path" => .ok .path
  | .text "query" => .ok .query
  | _ => .error (.operation (.parameterLocation name method))

/-- Refuses a list at `place`, which has no written form in a path. -/
def refuseArray (place : Place) (schema : Value) : Except Failure Unit := do
  match ← classify place schema with
  | .array _ => throw (.parameter (.arrayInPath place))
  | _ => return ()

/-- Succeeds if the values of a schema can be read from text. -/
def readable (registry : Registry) (place : Place) (schema : Value) (required : Bool)
    (name : String) : Emission Unit := do
  let slot ← resolveSlot registry place schema required
  discard (slot.fromParam name emptyContext)

/-- A parameter of an operation. Both classes read and write parameters as text, so that the
schema of a parameter has to be readable from text. -/
def parameterSpec (registry : Registry) (method : String) (parameter : Members) :
    Emission ParameterSpec := do
  let name ← Noted.ofExcept (parameterName method parameter)
  let location ← Noted.ofExcept (parameterLocation method name parameter)
  let required := match parameter.getD "required" with
    | .bool true => true
    | _ => false
  if location = .path && !required then
    Noted.fail (.operation (.optionalPathParameter name method))
  else
    let schema := parameter.getD "schema"
    if !schema.isMap then Noted.fail (.operation (.parameterWithoutSchema name method))
    else
      let place := [method, location.key, name]
      if location = .path then Noted.ofExcept (refuseArray place schema)
      Noted.silent (readable registry place schema required name)
      let slot ← resolveSlot registry place schema required
      return ⟨name, location, slot, (parameter.getD "description").visibleText?, place⟩

/-- The parameters of an operation, in order. -/
def parameterSpecs (registry : Registry) (method : String) :
    List Members → Emission (List ParameterSpec)
  | [] => return []
  | parameter :: rest => do
    let spec ← parameterSpec registry method parameter
    let specs ← parameterSpecs registry method rest
    return spec :: specs

/-- Whether no text occurs twice. -/
def allDifferent (texts : List String) : Bool :=
  texts.eraseDups.length == texts.length

/-- The names of the path parameters among some parameters. -/
def pathNames (specs : List ParameterSpec) : List String :=
  (specs.filter fun spec => spec.location = .path).map (·.name)

/-- The parameters of an operation: their names differ, and the path parameters are those of the
path template. -/
def matchingParameters (registry : Registry) (method : String) (operation : Operation) :
    Emission (List ParameterSpec) := do
  let specs ← parameterSpecs registry method operation.parameters
  let names := Text.sorted (pathNames specs)
  if !allDifferent (specs.map (·.name)) then .fail (.operation (.repeatedParameter method))
  else if names != Text.sorted operation.url.parameterNames then
    .fail (.operation (.pathMismatch method names operation.path))
  else return specs

/-! ## Signatures of a tag -/

/-- The signature of an operation whose method has the given name. -/
def ofOperation (registry : Registry) (method : String) (operation : Operation) :
    Emission Signature := do
  let body ← requestBody registry method operation
  let parameters ← matchingParameters registry method operation
  let response ← responseBody registry method operation
  return ⟨operation, method, body, parameters, response⟩

/-- The signatures of some operations of a tag, after methods that are given by name and label. -/
def ofOperations (registry : Registry) (tag : Identifier) (tagName : String)
    (seen : List (String × String)) : List Operation → Emission (List Signature)
  | [] => return []
  | operation :: rest => do
    let method ← Noted.ofExcept (methodNameOf tag operation)
    match seen.lookup method with
    | some first =>
      .fail (.operation (.repeatedOperationId method tagName first operation.label))
    | none =>
      let signature ← ofOperation registry method operation
      let later ← ofOperations registry tag tagName ((method, operation.label) :: seen) rest
      return signature :: later

/-- The signatures of the operations of a tag. -/
def ofGroup (registry : Registry) (group : TagGroup) : Emission (List Signature) := do
  let tag ← Noted.ofExcept (Identifier.ofSpaced group.name)
  ofOperations registry tag group.name [] group.operations

end Signature
end TypedApi
