import TypedApi.Document.Display

/-! # Faults of operations

Why the operations of a document cannot be turned into methods. An operation is named by its
label, the method with the path, until its method name is known.
-/
namespace TypedApi

/-- Why an operation cannot be turned into a method. -/
inductive OperationFault where
  | parameterNameInPath (name template : String)
  | unbalancedBraces (template : String)
  | pathItemNotObject (path : Scalar)
  | operationNotObject (label : String)
  | unexpectedMembers (owner : String) (names : List String)
  | undeclaredTag (tag label : String)
  | namelessTag (found : Value)
  | repeatedTag (name : String)
  | notOneTag (label : String) (found : Value)
  | parametersNotList (owner : String)
  | parameterNotObject (owner : String)
  | parameterReference (owner : String)
  | repeatedOperationId (method tag first second : String)
  | missingOperationId (label : String)
  | invalidOperationId (id label : String)
  /-- The method would have the name of a member that its class already has. -/
  | reservedOperationId (id label : String)
  | bodyReference (method : String)
  | optionalBody (method : String)
  | invalidParameterName (found : Value) (method : String)
  | parameterLocation (name method : String)
  | optionalPathParameter (name method : String)
  | parameterWithoutSchema (name method : String)
  | repeatedParameter (method : String)
  | pathMismatch (method : String) (names : List String) (path : String)
  | missingResponses (method : String)
  | missingOkResponse (method : String)
  | unexpectedResponses (method : String) (statuses : List String)
  | responseReference (method : String)
  | missingJsonSchema (owner : String)

/-- The wording of an operation fault. -/
def OperationFault.message : OperationFault → String
  | .parameterNameInPath name template =>
    "Invalid parameter name " ++ Text.quoted name ++ " in path template " ++ Text.quoted template
  | .unbalancedBraces template => "Unbalanced braces in path template " ++ Text.quoted template
  | .pathItemNotObject path =>
    "Expected path item of " ++ path.shown ++ " to be an object"
  | .operationNotObject label => "Expected operation " ++ label ++ " to be an object"
  | .unexpectedMembers owner names =>
    "Unexpected properties of " ++ owner ++ ": " ++ Text.commaList names
  | .undeclaredTag tag label =>
    "Tag " ++ Text.quoted tag ++ " of " ++ label ++ " is not declared in the top-level tags"
  | .namelessTag found => "Expected every tag to have a name, got " ++ found.shown
  | .repeatedTag name => "Tag " ++ Text.quoted name ++ " is declared more than once"
  | .notOneTag label found => "Expected 1 tag for " ++ label ++ ", but found: " ++ found.shown
  | .parametersNotList owner => "Expected parameters of " ++ owner ++ " to be a list"
  | .parameterNotObject owner => "Expected parameter of " ++ owner ++ " to be an object"
  | .parameterReference owner => "Unexpected reference in parameter of " ++ owner
  | .repeatedOperationId method tag first second =>
    "Duplicate operation ID " ++ Text.quoted method ++ " in tag " ++ Text.quoted tag ++ ": "
      ++ first ++ " and " ++ second
  | .missingOperationId label => "Expected operation ID for " ++ label
  | .invalidOperationId id label =>
    "Operation ID " ++ Text.quoted id ++ " of " ++ label ++ " is not a valid identifier"
  | .reservedOperationId id label =>
    "Operation ID " ++ Text.quoted id ++ " of " ++ label ++ " clashes with a generated member"
  | .bodyReference method => "Unexpected reference in request body of " ++ method
  | .optionalBody method => "Body is not required for operation " ++ method
  | .invalidParameterName found method =>
    "Invalid parameter name " ++ found.shown ++ " of operation " ++ method
  | .parameterLocation name method =>
    "Params should only be path or query: " ++ name ++ " of " ++ method
  | .optionalPathParameter name method =>
    "Path param " ++ name ++ " of " ++ method ++ " must be required"
  | .parameterWithoutSchema name method =>
    "Expected schema inside of parameter " ++ name ++ " of " ++ method
  | .repeatedParameter method => "Duplicate parameter names in " ++ method
  | .pathMismatch method names path =>
    "Path params of " ++ method ++ " " ++ textsShown names ++ " do not match the template "
      ++ Text.quoted path
  | .missingResponses method => "Expected responses of operation " ++ method
  | .missingOkResponse method => "Expected 200 response of operation " ++ method
  | .unexpectedResponses method statuses =>
    "Unexpected responses of operation " ++ method ++ ": " ++ Text.commaList statuses
  | .responseReference method => "Unexpected reference in response of " ++ method
  | .missingJsonSchema owner => "Expected application/json schema in " ++ owner

end TypedApi
