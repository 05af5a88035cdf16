import TypedApi.Schema.Shape
import TypedApi.Text.Order

/-! # Classification of schemas

`classify` finds the shape of a schema. A schema may hold the members of its shape and
annotations, nothing else: a member that would not be obeyed is refused.
-/
namespace TypedApi

/-- Where component schemas are found in a document. -/
def referencePrefix : String := "#/components/schemas/"

/-- The component that a reference names. -/
def parseReference (reference : String) : Except Failure Identifier :=
  let lead := referencePrefix.toList
  let name := reference.toList.drop lead.length
  if lead.isPrefixOf reference.toList && Text.isWordOf Text.isWordChar name then
    Identifier.ofHumped (.ofList (name.takeWhile Text.isWordChar))
  else .error (.reference (.malformed reference))

namespace Schema

/-- Members that describe a schema without constraining it. -/
def annotations : List String := ["description", "title", "example"]

/-- Compositions that no shape has. -/
def unsupported : List String := ["anyOf", "allOf", "not", "discriminator"]

/-- The keys of a schema that are neither annotations nor `allowed`. -/
def unexpectedKeys (members : Members) (allowed : List String) : List Scalar :=
  (members.map (·.1)).filter fun key =>
    match key with
    | .text name => !annotations.contains name && !allowed.contains name
    | _ => true

/-- Refuses a schema with members that are neither annotations nor `allowed`. -/
def expectOnly (place : Place) (label : String) (members : Members) (allowed : List String) :
    Except Failure Unit :=
  match unexpectedKeys members allowed with
  | [] => .ok ()
  | keys =>
    match keys.mapM fun key => (match key with | .text name => some name | _ => none) with
    | some names => .error (.shape place (.unexpectedMembers label (Text.sorted names)))
    | none => .error (.defect .unsortableNames)

/-- The shape of a reference. -/
def reference (place : Place) (members : Members) : Except Failure Shape := do
  expectOnly place "schema reference" members ["$ref"]
  match (members.getD "$ref").text? with
  | some target => return .reference target (← parseReference target)
  | none => throw (.reference (.notText place))

/-- The shape of a choice among schemas. -/
def oneOf (place : Place) (members : Members) : Except Failure Shape := do
  expectOnly place "oneOf schema" members ["oneOf"]
  match members.get? "oneOf" with
  | some (.list (first :: rest)) => return .oneOf (first :: rest)
  | _ => throw (.shape place .malformedOneOf)

/-- The texts that all of some values are. -/
def allTexts? (values : List Value) : Option (List String) :=
  values.mapM Value.text?

/-- The shape of an enumeration of texts. -/
def enumeration (place : Place) (members : Members) : Except Failure Shape := do
  expectOnly place "enum schema" members ["type", "enum"]
  match members.get? "enum" with
  | some (.list (first :: rest)) =>
    match allTexts? (first :: rest) with
    | some values =>
      if values.eraseDups.length == values.length then return .enumeration values
      else throw (.shape place .repeatedEnumValue)
    | none => throw (.shape place .malformedEnum)
  | _ => throw (.shape place .malformedEnum)

/-- A bound on the length of a text. -/
def length (place : Place) (members : Members) (name : String) :
    Except Failure (Option Nat) :=
  match members.getD name with
  | .null => .ok none
  | .int n =>
    if n < 0 then .error (.shape place (.malformedLength name (.int n))) else .ok (some n.toNat)
  | found => .error (.shape place (.malformedLength name found))

/-- The shape of a text with bounds on its length. A lower bound of zero is none. -/
def boundedText (place : Place) (members : Members) (email : Bool) : Except Failure Shape := do
  expectOnly place "string schema" members ["type", "format", "minLength", "maxLength"]
  let minLength ← length place members "minLength"
  let maxLength ← length place members "maxLength"
  if maxLength == some 0 then throw (.shape place .zeroMaxLength)
  let minLength := if minLength == some 0 then none else minLength
  match minLength, maxLength with
  | some minimum, some maximum =>
    if maximum < minimum then throw (.shape place (.crossedLengths minimum maximum))
    else return .text ⟨minLength, maxLength, email⟩
  | _, _ => return .text ⟨minLength, maxLength, email⟩

/-- The shape of a text that is no enumeration. -/
def text (place : Place) (members : Members) : Except Failure Shape := do
  match members.getD "format" with
  | .null => boundedText place members false
  | .text "email" => boundedText place members true
  | .text "date" =>
    expectOnly place "date schema" members ["type", "format"]
    return .date
  | .text "date-time" =>
    expectOnly place "date-time schema" members ["type", "format"]
    return .dateTime
  | found => throw (.shape place (.unexpectedFormat found))

/-- The shape of a list. -/
def array (place : Place) (members : Members) : Except Failure Shape := do
  expectOnly place "array schema" members ["type", "items"]
  match members.get? "items" with
  | some (.map items) => return .array (.map items)
  | _ => throw (.shape place .missingItems)

/-- The shape of an object with values under any names. -/
def map (place : Place) (members : Members) : Except Failure Shape := do
  expectOnly place "map schema" members ["type", "additionalProperties"]
  match members.get? "additionalProperties" with
  | some (.map values) => return .map (.map values)
  | some (.bool allowed) => throw (.shape place (.openMap allowed))
  | _ => throw (.shape place .missingMapValues)

/-- The properties that a mapping from names to schemas lists. -/
def properties? (found : Value) : Option (List (String × Value)) :=
  match found with
  | .map members => members.mapM fun m =>
      match m.1, m.2 with
      | .text name, .map schema => some (name, .map schema)
      | _, _ => none
  | _ => none

/-- The names that a list of required properties holds. -/
def requiredNames? : Option Value → Option (List String)
  | none => some []
  | some (.list items) => allTexts? items
  | some _ => none

/-- The shape of an object with named properties. -/
def object (place : Place) (members : Members) : Except Failure Shape := do
  expectOnly place "object schema" members ["type", "properties", "required"]
  match properties? (members.getD "properties") with
  | none => throw (.shape place .malformedProperties)
  | some properties =>
    match requiredNames? (members.get? "required") with
    | none => throw (.shape place .malformedRequired)
    | some required =>
      match required.filter fun name => !(properties.map (·.1)).contains name with
      | [] => return .object properties (Text.sortedSet required)
      | undefined => throw (.shape place (.undefinedRequired (Text.sortedSet undefined)))

/-- The shape of a schema that has a type. -/
def typed (place : Place) (members : Members) : Except Failure Shape := do
  match members.getD "type" with
  | .text "string" =>
    if members.has "enum" then enumeration place members else text place members
  | .text "boolean" =>
    expectOnly place "boolean schema" members ["type"]
    return .boolean
  | .text "number" =>
    expectOnly place "number schema" members ["type"]
    return .number false
  | .text "integer" =>
    expectOnly place "integer schema" members ["type"]
    return .number true
  | .text "array" => array place members
  | .text "object" =>
    if members.has "properties" then object place members else map place members
  | .null => throw (.shape place .missingType)
  | found => throw (.shape place (.unexpectedType found))

/-- The shape of a schema with the given members. -/
def ofMembers (place : Place) (members : Members) : Except Failure Shape :=
  if members.has "$ref" then reference place members
  else
    match unsupported.find? members.has with
    | some name => .error (.shape place (.unsupportedMember name))
    | none => if members.has "oneOf" then oneOf place members else typed place members

end Schema

/-- The shape of the schema at `place`. -/
def classify (place : Place) : Value → Except Failure Shape
  | .map members => Schema.ofMembers place members
  | found => .error (.shape place (.notAnObject found))

end TypedApi
