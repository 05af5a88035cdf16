import TypedApi.OpenApi.Form

/-! # The members of OpenAPI objects

The members of every kind of object, with the form of each.
-/
namespace TypedApi.OpenApi

namespace Form

/-- A schema or a reference to one. -/
def schema : Form := .orReference (.object .schema)

/-- A mapping from names to objects of a kind or references. -/
def named (kind : Kind) : Form := .optional (.mapping (.orReference (.object kind)))

/-- A mapping from media types to their contents. -/
def content : Form := .mapping (.object .mediaType)

/-- The schemes that a request must satisfy, each with its scopes. -/
def security : Form := .optional (.list (.mapping (.list .text)))

/-- Paths that are called back, each under its name. -/
def callback : Form := .mapping (.object .pathItem)

end Form

namespace Member

/-- A member that must be there. -/
def needed (name : String) (form : Form) : Member := ⟨name, form, true⟩

/-- A member that may be left out, but not be the absent value. -/
def given (name : String) (form : Form) : Member := ⟨name, form, false⟩

/-- A member that may be left out or be the absent value. -/
def maybe (name : String) (form : Form) : Member := ⟨name, .optional form, false⟩

/-- Members of one form that may be left out or be the absent value. -/
def maybes (form : Form) (names : List String) : List Member := names.map fun name => maybe name form

/-- The members that parameters and headers share. -/
def parameterCommon : List Member :=
  maybes .text ["description", "style"]
    ++ (["required", "deprecated", "allowEmptyValue", "explode", "allowReserved"].map fun name =>
      given name .flag)
    ++ [maybe "schema" .schema, given "examples" (.named .exampleObject),
      maybe "content" .content]

/-- The places of a parameter. -/
def location : Form := .word ["query", "header", "path", "cookie"]

/-- The members of a schema that hold schemas. -/
def subschemas : List Member :=
  (["allOf", "oneOf", "anyOf", "prefixItems"].map fun name => given name (.list .schema))
    ++ maybes .schema ["not", "items"]
    ++ [maybe "properties" (.mapping .schema),
      maybe "additionalProperties" (.either .flag .schema)]

/-- The members of a schema. -/
def schema : List Member :=
  let type : Form :=
    .word ["string", "number", "integer", "boolean", "array", "object", "null"]
  maybes .text ["title", "description", "format", "pattern"]
    ++ maybes .count ["maxLength", "minLength", "maxItems", "minItems", "maxProperties",
      "minProperties"]
    ++ maybes .number ["maximum", "minimum"]
    ++ maybes (.either .flag .number) ["exclusiveMaximum", "exclusiveMinimum"]
    ++ maybes .flag ["uniqueItems", "readOnly", "writeOnly", "deprecated"]
    ++ [maybe "multipleOf" .positive, maybe "required" (.list .text), maybe "enum" .filledList,
      maybe "const" .constant, maybe "type" (.either type (.list type)), given "nullable" .flag,
      maybe "discriminator" (.object .discriminator), maybe "xml" (.object .xml),
      maybe "externalDocs" (.object .externalDocs)]
    ++ subschemas

end Member

open Member in
/-- The members of an object of a kind. -/
def Kind.members : Kind → List Member
  | .document =>
    [needed "info" (.object .info), given "servers" (.list (.object .server)),
      needed "paths" (.mapping (.object .pathItem)), maybe "components" (.object .components),
      given "security" .security, maybe "tags" (.list (.object .tag)),
      maybe "externalDocs" (.object .externalDocs), needed "openapi" .version]
  | .info =>
    [needed "title" .text, needed "version" .text, maybe "contact" (.object .contact),
      maybe "license" (.object .license)] ++ maybes .text ["description", "termsOfService"]
  | .contact => maybes .text ["name", "url", "email"]
  | .license => [needed "name" .text, maybe "url" .text]
  | .server =>
    [needed "url" .text, maybe "description" .text,
      maybe "variables" (.mapping (.object .serverVariable))]
  | .serverVariable =>
    [maybe "enum" (.list .text), needed "default" .text, maybe "description" .text]
  | .tag =>
    [needed "name" .text, maybe "description" .text, maybe "externalDocs" (.object .externalDocs)]
  | .externalDocs => [maybe "description" .text, needed "url" .text]
  | .components =>
    [given "schemas" (.named .schema), given "responses" (.named .response),
      given "parameters" (.named .parameter), given "examples" (.named .exampleObject),
      given "requestBodies" (.named .requestBody), given "headers" (.named .header),
      given "securitySchemes" (.named .securityScheme), given "links" (.named .link),
      maybe "callbacks" (.mapping (.orReference .callback))]
  | .pathItem =>
    maybes .text ["$ref", "summary", "description"]
      ++ maybes (.object .operation)
        ["get", "put", "post", "delete", "options", "head", "patch", "trace"]
      ++ [maybe "servers" (.list (.object .server)),
        maybe "parameters" (.list (.orReference (.object .parameter)))]
  | .operation =>
    maybes .text ["summary", "description", "operationId"]
      ++ [maybe "tags" (.list .text), maybe "externalDocs" (.object .externalDocs),
        maybe "parameters" (.list (.orReference (.object .parameter))),
        maybe "requestBody" (.orReference (.object .requestBody)),
        needed "responses" (.mapping (.orReference (.object .response))),
        maybe "callbacks" (.mapping .callback), given "deprecated" .flag,
        given "security" .security, maybe "servers" (.list (.object .server))]
  | .parameter => [needed "name" .text, needed "in" location] ++ parameterCommon
  | .header => [given "name" .text, given "in" location] ++ parameterCommon
  | .requestBody =>
    [maybe "description" .text, needed "content" .content, given "required" .flag]
  | .mediaType =>
    [maybe "schema" .schema, given "examples" (.named .exampleObject),
      maybe "encoding" (.mapping (.object .encoding))]
  | .encoding =>
    maybes .text ["contentType", "style"]
      ++ [given "headers" (.named .header), given "explode" .flag, given "allowReserved" .flag]
  | .response =>
    [needed "description" .text, given "headers" (.named .header), maybe "content" .content,
      given "links" (.named .link)]
  | .link =>
    maybes .text ["operationRef", "operationId", "description"]
      ++ [maybe "parameters" (.mapping .anything), maybe "server" (.object .server)]
  | .exampleObject => maybes .text ["summary", "description", "externalValue"]
  | .schema => Member.schema
  | .discriminator => [needed "propertyName" .text, maybe "mapping" (.mapping .text)]
  | .xml =>
    maybes .text ["name", "namespace", "prefix"] ++ [given "attribute" .flag, given "wrapped" .flag]
  | .securityScheme =>
    [needed "type" .text, maybe "flows" (.object .oauthFlows)]
      ++ maybes .text ["description", "name", "in", "scheme", "bearerFormat", "openIdConnectUrl"]
  | .oauthFlows =>
    maybes (.object .oauthFlow) ["implicit", "password", "clientCredentials", "authorizationCode"]
  | .oauthFlow =>
    maybes .text ["authorizationUrl", "tokenUrl", "refreshUrl"]
      ++ [needed "scopes" (.mapping .text)]

end TypedApi.OpenApi
