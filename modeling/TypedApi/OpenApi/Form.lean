/-! # Forms of OpenAPI values

OpenAPI says of each member of its objects what values it may have. A form is such a rule, and an
object kind is a list of members with their forms. Members that a kind does not name are free.
-/
namespace TypedApi.OpenApi

/-- The kinds of objects in an OpenAPI document. -/
inductive Kind where
  | document
  | info
  | contact
  | license
  | server
  | serverVariable
  | tag
  | externalDocs
  | components
  | pathItem
  | operation
  | parameter
  | header
  | requestBody
  | mediaType
  | encoding
  | response
  | link
  | exampleObject
  | schema
  | discriminator
  | xml
  | securityScheme
  | oauthFlows
  | oauthFlow
deriving DecidableEq, Repr

/-- What values are allowed at a place. -/
inductive Form where
  | anything
  | text
  /-- The version of OpenAPI: three numbers, of which the first two are 3 and at most 1. -/
  | version
  | flag
  /-- A natural number. -/
  | count
  | number
  /-- A number greater than zero. -/
  | positive
  /-- One of some texts. -/
  | word (choices : List String)
  /-- A scalar that JSON has. -/
  | constant
  | list (items : Form)
  /-- A list with an item or more, of any form. -/
  | filledList
  /-- A mapping from texts. -/
  | mapping (values : Form)
  | object (kind : Kind)
  /-- A reference, or a value of the form in its place. -/
  | orReference (form : Form)
  /-- A value of one of two forms. -/
  | either (first second : Form)
  /-- A value of the form, or the absent value. -/
  | optional (form : Form)
deriving Repr

/-- A rule about a member of an object. -/
structure Member where
  name : String
  form : Form
  required : Bool
deriving Repr

end TypedApi.OpenApi
