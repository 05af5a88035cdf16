import TypedApi.Failure
import TypedApi.Naming.Identifier
import TypedApi.Schema.Shape

/-! # Codecs

A codec says how the values of a schema appear in generated code: their static type, and how they
are read from JSON, read from the text of a URL, and written as JSON. It is a tree over the
component types and the kinds of plain values.
-/
namespace TypedApi

/-- How values of a schema are typed, read and written. -/
inductive Codec where
  | boolean
  | number (integer : Bool)
  | text (limits : TextLimits)
  | date
  | dateTime
  /-- An enumeration that is a component. -/
  | enumeration (name : Identifier)
  /-- An object that is a component, named at `place`. -/
  | object (name : Identifier) (place : Place)
  | union (options : List Codec)
  | array (item : Codec)
  /-- A map from names to values, described at `place`. -/
  | map (value : Codec) (place : Place)
deriving Repr

namespace Codec

mutual

/-- The static type of the values. -/
def typeName : Codec → String
  | .boolean => "boolean"
  | .number _ => "number"
  | .text _ => "string"
  | .date => "Date"
  | .dateTime => "Date"
  | .enumeration name => name.upperCamel
  | .object name _ => name.upperCamel
  | .union options => " | ".intercalate (typeNames options)
  | .array item => "ReadonlyArray<" ++ item.typeName ++ ">"
  | .map value _ => "Readonly<Record<string, " ++ value.typeName ++ ">>"

/-- The static types of some alternatives. -/
def typeNames : List Codec → List String
  | [] => []
  | option :: rest => option.typeName :: typeNames rest

end

mutual

/-- Whether a value has to be converted to be written as JSON. -/
def hasPrinter : Codec → Bool
  | .date => true
  | .dateTime => true
  | .enumeration _ => true
  | .object _ _ => true
  | .union options => anyPrinter options
  | .array item => item.hasPrinter
  | .map value _ => value.hasPrinter
  | _ => false

/-- Whether the values of one of some alternatives have to be converted. -/
def anyPrinter : List Codec → Bool
  | [] => false
  | option :: rest => option.hasPrinter || anyPrinter rest

end

end Codec

/-- A codec for a place that may have to hold a value. -/
structure Slot where
  codec : Codec
  required : Bool
deriving Repr

namespace Slot

/-- The static type of a slot. -/
def typeName (slot : Slot) : String :=
  if slot.required then slot.codec.typeName else slot.codec.typeName ++ " | undefined"

/-- Whether a value of the slot has to be converted to be written as JSON. -/
def hasPrinter (slot : Slot) : Bool := slot.codec.hasPrinter

end Slot
end TypedApi
