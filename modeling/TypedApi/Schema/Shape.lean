import TypedApi.Document.Value
import TypedApi.Naming.Identifier

/-! # Shapes of schemas

A schema has one of a few shapes. The parts of a shape are the schemas that it is built from; the
properties of an object are not among them, since an object is always a component of its own.
-/
namespace TypedApi

/-- The bounds on the length of a text, and whether it has to be an email address. -/
structure TextLimits where
  minLength : Option Nat
  maxLength : Option Nat
  email : Bool
deriving DecidableEq, Repr

/-- What a schema describes. -/
inductive Shape where
  /-- The component that the text `reference` names. -/
  | reference (reference : String) (name : Identifier)
  /-- A value of the first of the alternatives that fits. -/
  | oneOf (options : List Value)
  | boolean
  | number (integer : Bool)
  | text (limits : TextLimits)
  /-- A day, as text. -/
  | date
  /-- A moment, as text. -/
  | dateTime
  /-- One of some texts. -/
  | enumeration (values : List String)
  /-- An object with values of one type under any names. -/
  | map (values : Value)
  | array (items : Value)
  /-- An object with named properties, and the names of those that it must have, in order. -/
  | object (properties : List (String × Value)) (required : List String)
deriving Repr

namespace Shape

/-- The schemas that a shape is built from. -/
def parts : Shape → List Value
  | .oneOf options => options
  | .map values => [values]
  | .array items => [items]
  | _ => []

end Shape
end TypedApi
