import TypedApi.Document.Display

/-! # Faults of schemas

Why a schema cannot be turned into a type. A fault is reported with its place: the names that
lead to the schema, joined by dots.
-/
namespace TypedApi

/-- The names that lead to a part of a document. -/
abbrev Place := List String

/-- A place as messages name it. -/
def Place.text (place : Place) : String :=
  let joined := ".".intercalate place
  if joined == "" then "<root>" else joined

/-- Why a reference leads to no component. -/
inductive ReferenceFault where
  /-- The reference is no text. -/
  | notText (place : Place)
  /-- The reference does not point among the component schemas. -/
  | malformed (reference : String)
  /-- No component has the name of the reference. -/
  | unknown (typeName : String)
deriving DecidableEq, Repr

/-- The wording of a reference fault. -/
def ReferenceFault.message : ReferenceFault → String
  | .notText place => "Expected '$ref' of '" ++ place.text ++ "' to be a string"
  | .malformed reference =>
    "Expected ref to be of form '#/components/schemas/<Name>', but found: "
      ++ Text.quoted reference
  | .unknown typeName =>
    "Reference to undefined schema '" ++ typeName ++ "' in components.schemas"

/-- Why a schema has none of the supported shapes. -/
inductive ShapeFault where
  | notAnObject (found : Value)
  /-- Members beyond those of the shape that `label` names. -/
  | unexpectedMembers (label : String) (names : List String)
  /-- A composition that is not supported. -/
  | unsupportedMember (name : String)
  | malformedOneOf
  | missingItems
  | missingType
  | unexpectedType (found : Value)
  | malformedEnum
  | repeatedEnumValue
  | unexpectedFormat (found : Value)
  | malformedLength (name : String) (found : Value)
  | zeroMaxLength
  | crossedLengths (minimum maximum : Nat)
  /-- `additionalProperties` is a truth value. -/
  | openMap (allowed : Bool)
  | missingMapValues
  | malformedProperties
  | malformedRequired
  | undefinedRequired (names : List String)
  /-- An enumeration that is not a component of its own. -/
  | inlineEnum
  /-- An object that is not a component of its own. -/
  | inlineObject
  /-- A component that is neither an enumeration nor an object with properties. -/
  | notAComponent

/-- The wording of a shape fault at a place. -/
def ShapeFault.message (place : Place) : ShapeFault → String
  | .notAnObject found =>
    "Expected a schema object at '" ++ place.text ++ "', got " ++ found.shown
  | .unexpectedMembers label names =>
    "Unexpected properties of " ++ label ++ " '" ++ place.text ++ "': " ++ Text.commaList names
  | .unsupportedMember name =>
    "Unsupported '" ++ name ++ "' in schema '" ++ place.text ++ "'"
  | .malformedOneOf =>
    "Expected 'oneOf' of '" ++ place.text ++ "' to be a non-empty list of schemas"
  | .missingItems => "Expected 'items' inside '" ++ place.text ++ "'"
  | .missingType => "Missing 'type' of schema '" ++ place.text ++ "'"
  | .unexpectedType found =>
    "Unexpected type " ++ found.shown ++ " of '" ++ place.text ++ "'"
  | .malformedEnum =>
    "Expected 'enum' of '" ++ place.text ++ "' to be a non-empty list of strings"
  | .repeatedEnumValue => "Duplicate values in 'enum' of '" ++ place.text ++ "'"
  | .unexpectedFormat found =>
    "Unexpected string format " ++ found.shown ++ " of '" ++ place.text ++ "'"
  | .malformedLength name found =>
    "Expected '" ++ name ++ "' of '" ++ place.text ++ "' to be a non-negative integer, got "
      ++ found.shown
  | .zeroMaxLength => "Unexpected maxLength of 0 in '" ++ place.text ++ "'"
  | .crossedLengths minimum maximum =>
    "Unexpected minLength " ++ toString minimum ++ " greater than maxLength "
      ++ toString maximum ++ " in '" ++ place.text ++ "'"
  | .openMap allowed =>
    "Expected 'additionalProperties' inside '" ++ place.text
      ++ "' to be a schema or reference, but found: " ++ (if allowed then "true" else "false")
  | .missingMapValues => "Expected 'additionalProperties' inside '" ++ place.text ++ "'"
  | .malformedProperties =>
    "Expected 'properties' of '" ++ place.text ++ "' to map property names to schemas"
  | .malformedRequired =>
    "Expected 'required' of '" ++ place.text ++ "' to be a list of property names"
  | .undefinedRequired names =>
    "Required properties of '" ++ place.text ++ "' are not defined: " ++ Text.commaList names
  | .inlineEnum =>
    "Unexpected inline enum in '" ++ place.text
      ++ "'; declare it as a named schema and reference it"
  | .inlineObject =>
    "Unexpected inline object in '" ++ place.text
      ++ "'; declare it as a named schema and reference it"
  | .notAComponent =>
    "Schema '" ++ place.text ++ "' must be a string enum or an object with properties"

/-- Why a value of a type cannot be read from the text of a URL. -/
inductive ParameterFault where
  /-- The type is an object component. -/
  | object (place : Place) (typeName : String)
  | map (place : Place)
  /-- A path has no room for several values. -/
  | arrayInPath (place : Place)
deriving DecidableEq, Repr

/-- The wording of a parameter fault. -/
def ParameterFault.message : ParameterFault → String
  | .object place typeName =>
    "Unexpected reference parameter '" ++ place.text ++ "': " ++ typeName
      ++ " cannot be read from a URL string"
  | .map place => "Unexpected map parameter '" ++ place.text ++ "'"
  | .arrayInPath place => "Unexpected array path parameter '" ++ ".".intercalate place ++ "'"

end TypedApi
